import DataPipeline.Proofs.Plugin.Builtin
import DataPipeline.Proofs.Lock.Outline

namespace DataPipeline

namespace Yaml

/-- A character that stands for itself in a value, quoted or not. -/
def isSolid (c : Char) : Bool :=
  isPrintable c && !isBreak c && !isSpace c && c ≠ ':' && c ≠ '#' && c ≠ '\''

variable {cs : List Char} {indent : Nat}

theorem hasPair_eq_false {p q : Char → Bool} (h : ∀ c ∈ cs, p c = false) :
    hasPair p q cs = false := by
  induction cs with
  | nil => rfl
  | cons c cs ih =>
    rw [List.forall_mem_cons] at h
    cases cs with
    | nil => rfl
    | cons d rest => rw [hasPair, h.1, ih h.2, Bool.false_and, Bool.false_or]

theorem not_break_of_solid {c : Char} (h : isSolid c = true) : isBreak c = false := by
  simp only [isSolid, Bool.and_eq_true] at h
  simpa using h.1.1.1.1.2

theorem breaksOff_of_solid (h : ∀ c ∈ cs, isSolid c = true) (before : Char) :
    breaksOff before cs = false := by
  induction cs generalizing before with
  | nil => rfl
  | cons c cs ih =>
    rw [List.forall_mem_cons] at h
    have hc := h.1
    simp only [isSolid, Bool.and_eq_true, decide_eq_true_eq] at hc
    rw [breaksOff, ih h.2, decide_eq_false hc.1.1.2, decide_eq_false hc.1.2]
    rfl

theorem singleQuoted_of_solid (h : ∀ c ∈ cs, isSolid c = true) :
    singleQuoted indent false cs = cs ++ ['\''] := by
  induction cs with
  | nil => rfl
  | cons c cs ih =>
    rw [List.forall_mem_cons] at h
    have hc := h.1
    simp only [isSolid, Bool.and_eq_true, decide_eq_true_eq] at hc
    rw [singleQuoted, not_break_of_solid h.1, if_neg Bool.false_ne_true,
      if_neg Bool.false_ne_true, if_neg hc.2, ih h.2]
    rfl

theorem needsEscapes_of_solid (h : ∀ c ∈ cs, isSolid c = true) : needsEscapes cs = false := by
  have hspace : hasPair isSpace isBreak cs = false := by
    apply hasPair_eq_false
    intro c hc
    have hc := h c hc
    simp only [isSolid, Bool.and_eq_true] at hc
    simpa using hc.1.1.1.2
  have hprintable : cs.any (!isPrintable ·) = false := by
    rw [List.any_eq_false]
    intro c hc
    have hc := h c hc
    simp only [isSolid, Bool.and_eq_true] at hc
    simp [hc.1.1.1.1.1]
  rw [needsEscapes, hprintable, hspace]
  rfl

theorem newline_notMem_of_solid (h : ∀ c ∈ cs, isSolid c = true) :
    cs.contains '\n' = false := by
  rw [List.contains_eq_mem, decide_eq_false_iff_not]
  intro hmem
  exact absurd (h _ hmem) (by decide)

theorem isPlainText_of_solid (hs : ∀ c ∈ cs, isSolid c = true)
    (hmark : beginsAsMark cs = false) :
    isPlainText cs = true := by
  have hbad : cs.any (fun c => isBreak c || !isPrintable c) = false := by
    rw [List.any_eq_false]
    intro c hc
    have hc := hs c hc
    simp only [isSolid, Bool.and_eq_true] at hc
    simpa using ⟨by simpa using hc.1.1.1.1.2, hc.1.1.1.1.1⟩
  have hspace {c : Char} (hc : c ∈ cs) : isSpace c = false := by
    have hc := hs c hc
    simp only [isSolid, Bool.and_eq_true] at hc
    simpa using hc.1.1.1.2
  have hhead : cs.head?.any isSpace = false := by
    cases hl : cs.head? with
    | none => rfl
    | some c => exact hspace (List.mem_of_head? hl)
  have hlast : cs.getLast?.any isSpace = false := by
    cases hl : cs.getLast? with
    | none => rfl
    | some c => exact hspace (List.mem_of_getLast? hl)
  rw [isPlainText, hmark, breaksOff_of_solid hs, hbad, hhead, hlast]
  rfl

theorem writtenValue_of_solid {s : String} (hs : ∀ c ∈ s.toList, isSolid c = true)
    (hmark : beginsAsMark s.toList = false) (indent : Nat) :
    writtenValue indent s =
      (if isAmbiguous s then '\'' :: s.toList ++ ['\''] else s.toList) ++ ['\n'] := by
  have hpair : hasPair isBreak isSpace s.toList = false :=
    hasPair_eq_false fun c hc => not_break_of_solid (hs c hc)
  rw [writtenValue, formOf, newline_notMem_of_solid hs, isPlainText_of_solid hs hmark,
    needsEscapes_of_solid hs, hpair]
  cases isAmbiguous s with
  | true => simp [singleQuoted_of_solid hs]
  | false => simp

section Dollar

variable {s : String}

theorem ne_of_head {t : String} (h : s.toList = '$' :: cs) (ht : t.toList.head? ≠ some '$') :
    s ≠ t := by
  rintro rfl
  rw [h] at ht
  exact ht rfl

theorem integerOf?_of_head (h : s.toList = '$' :: cs) : integerOf? s = none := by
  have hzero : hasSpareZero ('$' :: cs) = false := by
    simp [hasSpareZero, dropSign, startsWithSign, isSign]
  have hdigits : digitsValue? 10 ('$' :: cs) = none := by
    rw [digitsValue?, List.isEmpty_cons, if_neg Bool.false_ne_true, List.mapM_cons]
    rfl
  have hmagnitude : magnitude? ('$' :: cs) = none := by
    simp [magnitude?, radixOf?, hzero, hdigits]
  simp [integerOf?, h, dropPlus, hmagnitude]

theorem doubleOf?_of_head (h : s.toList = '$' :: cs) : doubleOf? s = none := by
  have hunsigned : unsignedDouble? ('$' :: cs) = none := by
    simp [unsignedDouble?]
  have hnan : ¬(s = ".nan" ∨ s = ".NaN" ∨ s = ".NAN") := by
    rintro (rfl | rfl | rfl) <;> cases h
  simp [doubleOf?, h, dropPlus, hunsigned, hnan]

theorem plainFound_of_head (h : s.toList = '$' :: cs) : plainFound s = .string s := by
  have hzero : hasSpareZero ('$' :: cs) = false := by
    simp [hasSpareZero, dropSign, startsWithSign, isSign]
  have hempty : s.isEmpty = false := by
    rw [String.isEmpty_eq_false_iff]
    exact ne_of_head h (by decide)
  have hnull : isNullText s = false := by
    simp only [isNullText, Bool.or_eq_false_iff, decide_eq_false_iff_not]
    exact ⟨⟨⟨ne_of_head h (by decide), ne_of_head h (by decide)⟩, ne_of_head h (by decide)⟩,
      ne_of_head h (by decide)⟩
  have htrue : ¬(s = "true" ∨ s = "True" ∨ s = "TRUE") := by
    rintro (rfl | rfl | rfl) <;> cases h
  have hfalse : ¬(s = "false" ∨ s = "False" ∨ s = "FALSE") := by
    rintro (rfl | rfl | rfl) <;> cases h
  have hbool : boolOf? s = none := by rw [boolOf?, if_neg htrue, if_neg hfalse]
  rw [plainFound, hempty, hnull, hbool, integerOf?_of_head h, doubleOf?_of_head h, h, hzero]
  rfl

theorem isAmbiguous_of_head (h : s.toList = '$' :: cs) : isAmbiguous s = false := by
  rw [isAmbiguous, plainFound_of_head h, h]
  simp [hasSpareZero, dropSign, startsWithSign, isSign]

end Dollar

theorem isSolid_of_isDigit {c : Char} (h : c.isDigit = true) : isSolid c = true := by
  have hall : ∀ n < 58, 48 ≤ n → isSolid (Char.ofNat n) = true := by decide
  have hrange : 48 ≤ c.toNat ∧ c.toNat < 58 := by
    simp only [Char.isDigit, ge_iff_le, Bool.and_eq_true, decide_eq_true_eq,
      UInt32.le_iff_toNat_le] at h
    exact ⟨h.1, Nat.lt_succ_of_le h.2⟩
  rw [← Char.ofNat_toNat c]
  exact hall _ hrange.2 hrange.1

theorem isSolid_hexChar : ∀ n < 16, isSolid (Sha256.hexChar n) = true := by decide

theorem beginsAsMark_hexChar {n : Nat} (h : n < 16) :
    beginsAsMark (Sha256.hexChar n :: cs) = false := by
  have hall :
      ∀ n < 16, (Sha256.hexChar n ≠ '-' ∧ Sha256.hexChar n ≠ '.' ∧ Sha256.hexChar n ≠ '?' ∧
      Sha256.hexChar n ≠ ':') ∧
      "#,[]\x7b\x7d&*!|>'\"%@\x60".toList.contains (Sha256.hexChar n) = false := by decide
  obtain ⟨⟨hdash, hpoint, hquestion, hcolon⟩, hmark⟩ := hall n h
  simp only [beginsAsMark, decide_eq_false hdash, decide_eq_false hpoint,
    decide_eq_false hquestion, decide_eq_false hcolon, hmark, Bool.or_self, Bool.and_false,
    Bool.false_and]

end Yaml

open Yaml (isSolid)

theorem Hop.isSolid_lettersOf {word : List Char} (hword : word.all isSolid = true) (i : Nat) :
    ∀ c ∈ lettersOf word i, isSolid c = true := by
  intro c hc
  rcases List.mem_append.1 hc with hc | hc
  · exact List.all_eq_true.1 hword c hc
  rcases List.mem_cons.1 hc with rfl | hc
  · decide
  rcases List.mem_append.1 hc with hc | hc
  · exact Yaml.isSolid_of_isDigit (Nat.isDigit_of_mem_toDigits (by decide) (by decide) hc)
  · cases List.mem_singleton.1 hc
    decide

theorem Hop.isSolid_letters (h : Hop) : ∀ c ∈ h.letters, isSolid c = true := by
  cases h with
  | library i => exact isSolid_lettersOf rfl i
  | children i => exact isSolid_lettersOf rfl i
  | child => exact List.all_eq_true.1 rfl

theorem NodePath.isSolid_text (p : NodePath) : ∀ c ∈ p.text.toList, isSolid c = true := by
  obtain ⟨hops⟩ := p
  induction hops with
  | nil => exact List.all_eq_true.1 rfl
  | cons h hops ih =>
    rw [toList_text_cons, List.forall_mem_append, List.forall_mem_cons]
    exact ⟨ih, by decide, h.isSolid_letters⟩

theorem NodePath.writtenValue_text (p : NodePath) (indent : Nat) :
    Yaml.writtenValue indent p.text = p.text.toList ++ ['\n'] := by
  obtain ⟨cs, hcs⟩ := List.head?_eq_some_iff.1 p.head?_toList_text
  have hmark : Yaml.beginsAsMark p.text.toList = false := by simp [hcs, Yaml.beginsAsMark]
  rw [Yaml.writtenValue_of_solid p.isSolid_text hmark, Yaml.isAmbiguous_of_head hcs,
    if_neg Bool.false_ne_true]

/-- A text that is written as it is. -/
def Yaml.IsPlain (s : String) : Prop := Yaml.formOf s = .plain

instance (s : String) : Decidable (Yaml.IsPlain s) := inferInstanceAs (Decidable (_ = _))

theorem Yaml.IsPlain.writtenValue {s : String} (h : IsPlain s) (indent : Nat) :
    Yaml.writtenValue indent s = s.toList ++ ['\n'] := by
  rw [Yaml.writtenValue, h]

theorem ComponentKind.isPlain_name (k : ComponentKind) : Yaml.IsPlain k.name := by
  cases k <;> decide +kernel

theorem PluginKind.isPlain_name (k : PluginKind) : Yaml.IsPlain k.name := by
  cases k <;> decide +kernel

namespace Sha256

theorem isSolid_hex (message : List UInt8) : ∀ c ∈ (hex message).toList, isSolid c = true := by
  intro c hc
  rw [hex, String.toList_ofList, List.mem_flatMap] at hc
  obtain ⟨b, _, hc⟩ := hc
  have hb := b.toNat_lt
  rcases List.mem_cons.1 hc with rfl | hc
  · exact Yaml.isSolid_hexChar _ (by omega)
  · cases List.mem_singleton.1 hc
    exact Yaml.isSolid_hexChar _ (by omega)

theorem beginsAsMark_hex (message : List UInt8) :
    Yaml.beginsAsMark (hex message).toList = false := by
  rw [hex, String.toList_ofList]
  cases digest message with
  | nil => rfl
  | cons b bytes =>
    have hb := b.toNat_lt
    exact Yaml.beginsAsMark_hexChar (by omega)

end Sha256

/-- The lines of a lockfile for a plugin. A digest that could be read as a number stands in
quotes. -/
def PluginLock.listing (p : PluginLock) : String :=
  String.join [
    "  - kind: ", p.kind.name, "\n",
    "    name: ", p.name, "\n",
    "    config_hash: ",
    if Yaml.isAmbiguous p.digest then "'" ++ p.digest ++ "'" else p.digest, "\n"]

/-- The lines of a lockfile for a node. -/
def NodeLock.listing (n : NodeLock) : String :=
  String.join [
    "- path: ", n.path.text, "\n",
    "  component: ", n.component.name, "\n",
    match n.referenceId with
    | none => ""
    | some id => "  reference_id: " ++ String.ofList (Yaml.writtenValue 4 id),
    if n.plugins = [] then "" else "  plugins:\n" ++ String.join (n.plugins.map (·.listing))]

namespace Lock

/-- A lockfile: the time, and the lines for one node after the other. -/
def listing (generatedAt : String) (nodes : List NodeLock) : String :=
  String.join [
    "generated_at: ", String.ofList (Yaml.writtenValue 2 generatedAt),
    "nodes:\n", String.join (nodes.map (·.listing))]

/-- A plugin whose name needs no quotes, with a digest of something. -/
structure Plain (p : PluginLock) : Prop where
  name : Yaml.IsPlain p.name
  digest : ∃ message, p.digest = Sha256.hex message

theorem pluginText_eq {p : PluginLock} (h : Plain p) : pluginText p = p.listing.toList := by
  obtain ⟨message, hdigest⟩ := h.digest
  have hwritten :=
    Yaml.writtenValue_of_solid (Sha256.isSolid_hex message) (Sha256.beginsAsMark_hex message) 6
  rw [← hdigest] at hwritten
  by_cases hquote : Yaml.isAmbiguous p.digest = true <;>
    simp [pluginText, PluginLock.listing, Yaml.writtenItem, Yaml.writtenField,
      p.kind.isPlain_name.writtenValue, h.name.writtenValue, hwritten, hquote, Yaml.spaces,
      List.replicate]

theorem nodeText_eq {n : NodeLock} (h : ∀ p ∈ n.plugins, Plain p) :
    nodeText n = n.listing.toList := by
  obtain ⟨path, component, referenceId, plugins⟩ := n
  have hplugins : plugins.flatMap pluginText = plugins.flatMap fun p => p.listing.toList :=
    List.flatMap_congr fun p hp => pluginText_eq (h p hp)
  cases plugins <;> cases referenceId <;>
    simp_all [nodeText, NodeLock.listing, Yaml.writtenItem, Yaml.writtenField,
      path.writtenValue_text, component.isPlain_name.writtenValue, Yaml.spaces, List.replicate,
      String.toList_join, List.flatMap_map]

theorem text_eq (generatedAt : String) {nodes : List NodeLock} (hne : nodes ≠ [])
    (h : ∀ n ∈ nodes, ∀ p ∈ n.plugins, Plain p) :
    text generatedAt nodes = listing generatedAt nodes := by
  have hempty : nodes.isEmpty = false := List.isEmpty_eq_false_iff.2 hne
  have hnodes : nodes.flatMap nodeText = nodes.flatMap fun n => n.listing.toList :=
    List.flatMap_congr fun n hn => nodeText_eq (h n hn)
  apply String.toList_inj.1
  simp [text, listing, hempty, hnodes, Yaml.writtenField, String.toList_join, List.flatMap_map]

theorem isPlain_of_template {α : Type} {t : Templates α} {ref : PluginRef} {config : Fields}
    (ht : ∀ template ∈ t.templates, Yaml.IsPlain template.name)
    (h : t.mergedConfig ref = .ok config) : Yaml.IsPlain ref.name := by
  obtain ⟨template, hget, _⟩ := Templates.mergedConfig_ok.1 h
  obtain ⟨hmem, hname⟩ := Templates.get_mem hget
  rw [← hname]
  exact ht template hmem

theorem plain_of_pin {x : PluginKind × PluginRef} {p : PluginLock}
    (h : Registry.builtin.pin? x = some p) : Plain p := by
  obtain ⟨kind, ref⟩ := x
  obtain ⟨config, hconfig, rfl⟩ := Option.map_eq_some_iff.1 h
  refine ⟨?_, _, rfl⟩
  have hconfig := toOption_eq_some.1 hconfig
  cases kind with
  | generator | wrapper | datajet => exact isPlain_of_template (by decide +kernel) hconfig

theorem exists_of_mem_mapM {α β : Type} {f : α → Option β} {xs : List α} {ys : List β} {y : β}
    (h : xs.mapM f = some ys) (hy : y ∈ ys) : ∃ x ∈ xs, f x = some y := by
  induction xs generalizing ys with
  | nil =>
    cases h
    cases hy
  | cons x xs ih =>
    rw [List.mapM_cons] at h
    obtain ⟨first, hfirst, h⟩ := Option.bind_eq_some_iff.1 h
    obtain ⟨rest, hrest, h⟩ := Option.bind_eq_some_iff.1 h
    cases h
    rcases List.mem_cons.1 hy with rfl | hy
    · exact ⟨x, List.mem_cons_self, hfirst⟩
    · obtain ⟨x', hx', hy⟩ := ih hrest hy
      exact ⟨x', List.mem_cons_of_mem _ hx', hy⟩

theorem text_of_ok {schema : Schema} {nodes : List NodeLock} (generatedAt : String)
    (h : lockSchema Registry.builtin schema = .ok nodes) :
    text generatedAt nodes = listing generatedAt nodes := by
  have h := toOption_eq_some.2 h
  rw [lockSchema, toOption_node] at h
  obtain ⟨tree, ht, rfl⟩ := Option.map_eq_some_iff.1 h
  apply text_eq
  · rw [Outline.listed_eq]
    exact List.cons_ne_nil _ _
  · intro n hn p hp
    obtain ⟨node, _, _, _, spec, _, hpins⟩ := Schema.holds_of_mem ht .root hn
    obtain ⟨x, _, hpin⟩ := exists_of_mem_mapM hpins hp
    exact plain_of_pin hpin

end Lock

end DataPipeline
