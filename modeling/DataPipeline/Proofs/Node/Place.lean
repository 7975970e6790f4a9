import DataPipeline.NodePath
import Mathlib.Data.Set.Lattice
import Mathlib.Order.CompletePartialOrder

namespace DataPipeline

namespace Hop

/-- The letters of a hop with an index, without the point in front. -/
def lettersOf (word : List Char) (i : Nat) : List Char :=
  word ++ '[' :: (Nat.toDigits 10 i ++ [']'])

/-- The letters of a hop without the point in front. -/
def letters : Hop → List Char
  | library i => lettersOf ['l', 'i', 'b', 'r', 'a', 'r', 'y'] i
  | children i => lettersOf ['c', 'h', 'i', 'l', 'd', 'r', 'e', 'n'] i
  | child => ['c', 'h', 'i', 'l', 'd']

theorem toList_text (h : Hop) : h.text.toList = '.' :: h.letters := by
  cases h with
  | library i =>
    rw [text, String.toList_append, String.toList_append, Nat.toString_eq_repr, Nat.toList_repr,
      List.append_assoc]
    rfl
  | children i =>
    rw [text, String.toList_append, String.toList_append, Nat.toString_eq_repr, Nat.toList_repr,
      List.append_assoc]
    rfl
  | child => rfl

theorem point_notMem_toDigits (i : Nat) : '.' ∉ Nat.toDigits 10 i := by
  intro h
  have hdigit : '.'.isDigit = true := Nat.isDigit_of_mem_toDigits (by decide) (by decide) h
  revert hdigit
  decide

theorem point_notMem_lettersOf {word : List Char} (hword : '.' ∉ word) (i : Nat) :
    '.' ∉ lettersOf word i := by
  intro h
  rcases List.mem_append.1 h with h | h
  · exact hword h
  rcases List.mem_cons.1 h with h | h
  · revert h
    decide
  rcases List.mem_append.1 h with h | h
  · exact point_notMem_toDigits i h
  · revert h
    decide

theorem point_notMem_letters (h : Hop) : '.' ∉ h.letters := by
  cases h with
  | library i => exact point_notMem_lettersOf (by decide) i
  | children i => exact point_notMem_lettersOf (by decide) i
  | child => decide

theorem lettersOf_inj {word : List Char} {i j : Nat} (h : lettersOf word i = lettersOf word j) :
    i = j := by
  have h := List.append_cancel_left h
  have h := List.append_cancel_right (List.cons.inj h).2
  rw [← Nat.ofDigitChars_ten_toDigits (n := i), h, Nat.ofDigitChars_ten_toDigits]

theorem letters_inj {h h' : Hop} (heq : h.letters = h'.letters) : h = h' := by
  cases h with
  | library i =>
    cases h' with
    | library j => exact congrArg library (lettersOf_inj heq)
    | children j => exact absurd (List.cons.inj heq).1 (by decide)
    | child => exact absurd (List.cons.inj heq).1 (by decide)
  | children i =>
    cases h' with
    | library j => exact absurd (List.cons.inj heq).1 (by decide)
    | children j => exact congrArg children (lettersOf_inj heq)
    | child => cases heq
  | child =>
    cases h' with
    | library j => exact absurd (List.cons.inj heq).1 (by decide)
    | children j => cases heq
    | child => rfl

end Hop

theorem append_point_inj {c : Char} {a a' b b' : List Char} (hb : c ∉ b) (hb' : c ∉ b')
    (h : a ++ c :: b = a' ++ c :: b') : a = a' ∧ b = b' := by
  rcases List.append_eq_append_iff.1 h with ⟨l, rfl, hcut⟩ | ⟨l, rfl, hcut⟩
  · cases l with
    | nil => exact ⟨(List.append_nil a).symm, (List.cons.inj hcut).2⟩
    | cons x l =>
      obtain ⟨_, rfl⟩ := List.cons.inj hcut
      exact absurd (List.mem_append_right _ List.mem_cons_self) hb
  · cases l with
    | nil => exact ⟨List.append_nil a', (List.cons.inj hcut).2.symm⟩
    | cons x l =>
      obtain ⟨_, rfl⟩ := List.cons.inj hcut
      exact absurd (List.mem_append_right _ List.mem_cons_self) hb'

namespace NodePath

theorem toList_text_cons (h : Hop) (hops : List Hop) :
    (text ⟨h :: hops⟩).toList = (text ⟨hops⟩).toList ++ '.' :: h.letters := by
  change (text ⟨hops⟩ ++ h.text).toList = _
  rw [String.toList_append, Hop.toList_text]

theorem head?_toList_text (p : NodePath) : p.text.toList.head? = some '$' := by
  obtain ⟨hops⟩ := p
  induction hops with
  | nil => rfl
  | cons h hops ih =>
    rw [toList_text_cons, List.head?_append, ih]
    rfl

theorem text_ne_root (h : Hop) (hops : List Hop) : text ⟨h :: hops⟩ ≠ text ⟨[]⟩ := by
  intro heq
  have hmem : '.' ∈ (text ⟨[]⟩).toList := by
    rw [← heq, toList_text_cons]
    exact List.mem_append_right _ List.mem_cons_self
  revert hmem
  decide

theorem text_injective : ∀ {p q : NodePath}, p.text = q.text → p = q := by
  rintro ⟨hops⟩ ⟨hops'⟩ heq
  induction hops generalizing hops' with
  | nil =>
    cases hops' with
    | nil => rfl
    | cons h' hops' => exact absurd heq.symm (text_ne_root h' hops')
  | cons h hops ih =>
    cases hops' with
    | nil => exact absurd heq (text_ne_root h hops)
    | cons h' hops' =>
      have hlist := congrArg String.toList heq
      rw [toList_text_cons, toList_text_cons] at hlist
      obtain ⟨houter, hletters⟩ :=
        append_point_inj h.point_notMem_letters h'.point_notMem_letters hlist
      cases ih _ (String.ext houter)
      rw [Hop.letters_inj hletters]

/-- The texts of a place and of all places inside it. -/
def under (p : NodePath) : Set String := {s | ∃ inner, s = text ⟨inner ++ p.hops⟩}

theorem text_mem_under (p : NodePath) : p.text ∈ p.under := ⟨[], rfl⟩

theorem under_hop_subset (p : NodePath) (h : Hop) : (p.hop h).under ⊆ p.under := by
  rintro s ⟨inner, rfl⟩
  exact ⟨inner ++ [h], by simp [hop]⟩

theorem disjoint_under {p : NodePath} {h h' : Hop} (hne : h ≠ h') :
    Disjoint (p.hop h).under (p.hop h').under := by
  rw [Set.disjoint_left]
  rintro s ⟨inner, rfl⟩ ⟨inner', heq⟩
  have hhops : (inner ++ [h]) ++ p.hops = (inner' ++ [h']) ++ p.hops := by
    simpa [hop] using text_injective heq
  have hlast := congrArg List.getLast? (List.append_cancel_right hhops)
  rw [List.getLast?_concat, List.getLast?_concat] at hlast
  exact hne (Option.some.inj hlast)

theorem not_hop_suffix {p : NodePath} {h : Hop} : ¬(p.hop h).hops <:+ p.hops := by
  intro hsuffix
  have hlen : p.hops.length + 1 ≤ p.hops.length := hsuffix.length_le
  omega

theorem hop_eq_of_suffix {p : NodePath} {h h' : Hop} {hops : List Hop}
    (hs : (p.hop h).hops <:+ hops) (hs' : (p.hop h').hops <:+ hops) : h = h' := by
  have heq := (List.suffix_of_suffix_length_le hs hs' (Nat.le_refl _)).eq_of_length rfl
  exact (List.cons.inj heq).1

end NodePath

end DataPipeline
