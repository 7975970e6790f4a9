import DataPipeline.Proofs.Decimal.Shortest
import DataPipeline.Proofs.Document.JsonText
import DataPipeline.Proofs.Document.Proper

namespace DataPipeline

open Decimal

namespace Number

variable {n n' : Number}

theorem toList_toString (k : Int) :
    (toString k).toList = (if k < 0 then ['-'] else []) ++ natChars k.natAbs := by
  rw [natChars, Nat.toString_eq_repr, Int.toString_eq_repr, Int.repr_eq_if]
  split
  next h =>
    have hnat : k.toNat = k.natAbs := by omega
    rw [if_neg (Int.not_lt.2 h), List.nil_append, hnat]
  next h =>
    have hnat : (-k).toNat = k.natAbs := by omega
    rw [if_pos (Int.not_le.1 h), String.toList_append, hnat]
    rfl

theorem isNumeric_of_mem_toString (k : Int) :
    ∀ c ∈ (toString k).toList, c ≠ '.' ∧ c ≠ 'e' ∧ isNumeric c = true := by
  rw [toList_toString, List.forall_mem_append]
  constructor
  · split
    · exact List.forall_mem_singleton.2 ⟨by decide, by decide, rfl⟩
    · nofun
  · intro c hc
    have hdigit := isDigit_of_mem_natChars hc
    refine ⟨?_, ?_, isNumeric_of_isDigit hdigit⟩
    · rintro rfl
      cases hdigit
    · rintro rfl
      cases hdigit

theorem isNumeric_of_mem_chars (h : (Json.number n).proper = true) :
    ∀ c ∈ n.chars, isNumeric c = true := by
  cases n with
  | int k => exact fun c hc => (isNumeric_of_mem_toString k c hc).2.2
  | double x => exact isNumeric_of_mem_shortestChars h

theorem chars_ne_nil (h : (Json.number n).proper = true) : n.chars ≠ [] := by
  intro hnil
  cases n with
  | int k =>
    rw [chars, toList_toString, List.append_eq_nil_iff] at hnil
    exact natChars_ne_nil _ hnil.2
  | double x =>
    have hmark := mark_mem_shortestChars h
    rw [chars] at hnil
    rw [hnil] at hmark
    simp at hmark

/-- No number is written like another. -/
theorem chars_inj (h : (Json.number n).proper = true) (h' : (Json.number n').proper = true)
    (heq : n.chars = n'.chars) : n = n' := by
  have hmark (k : Int) {x : Float} (hx : x.isFinite = true) :
      (toString k).toList ≠ shortestChars x := by
    intro heq
    have hx := mark_mem_shortestChars hx
    rw [← heq] at hx
    rcases hx with hx | hx
    · exact (isNumeric_of_mem_toString k _ hx).1 rfl
    · exact (isNumeric_of_mem_toString k _ hx).2.1 rfl
  cases n with
  | int k =>
    cases n' with
    | int k' =>
      have hrepr : toString k = toString k' := String.toList_inj.1 heq
      rw [Int.toString_eq_repr, Int.toString_eq_repr, Int.repr_inj] at hrepr
      rw [hrepr]
    | double x => exact absurd heq (hmark k h')
  | double x =>
    cases n' with
    | int k => exact absurd heq.symm (hmark k h)
    | double y => rw [shortestChars_inj h h' heq]

end Number

namespace Json

variable {v v' : Json} {rest rest' cs cs' : List Char}

/-- What may stand behind a number. -/
def Ends (rest : List Char) : Prop := ∀ c ∈ rest.head?, isNumeric c = false

theorem numeric_split (h : ∀ c ∈ cs, isNumeric c = true) (h' : ∀ c ∈ cs', isNumeric c = true)
    (hrest : Ends rest) (hrest' : Ends rest') (heq : cs ++ rest = cs' ++ rest') :
    cs = cs' ∧ rest = rest' := by
  have htake {cs rest : List Char} (h : ∀ c ∈ cs, isNumeric c = true) (hrest : Ends rest) :
      (cs ++ rest).takeWhile isNumeric = cs := by
    rw [List.takeWhile_append_of_pos h]
    cases rest with
    | nil => simp
    | cons c rest => rw [List.takeWhile_cons_of_neg (by simp [hrest c rfl]), List.append_nil]
  have hcs : cs = cs' := by rw [← htake h hrest, heq, htake h' hrest']
  subst hcs
  exact ⟨rfl, List.append_cancel_left heq⟩

theorem quotedChars_split {s s' : String}
    (heq : quotedChars s ++ rest = quotedChars s' ++ rest') :
    s = s' ∧ rest = rest' := by
  rw [Document.JsonText.quotedChars_append, Document.JsonText.quotedChars_append,
    List.cons.injEq] at heq
  obtain ⟨span, m, hread⟩ := Document.JsonText.stringDoc_quoted ⟨[], ⟨0, 0⟩⟩ s rest ⟨0, 0⟩
  obtain ⟨span', m', hread'⟩ := Document.JsonText.stringDoc_quoted ⟨[], ⟨0, 0⟩⟩ s' rest' ⟨0, 0⟩
  rw [heq.2, hread'] at hread
  cases hread
  exact ⟨rfl, rfl⟩

/-- The characters that tell the kinds of values apart. -/
def mark : Json → Char
  | .null => 'n'
  | .bool true => 't'
  | .bool false => 'f'
  | .number _ => '0'
  | .string _ => '"'
  | .array _ => '['
  | .object _ => '\x7b'

theorem chars_head (h : v.proper = true) :
    ∃ c cs, v.chars = c :: cs ∧ (if isNumeric c then '0' else c) = v.mark := by
  cases v with
  | null => exact ⟨_, _, rfl, rfl⟩
  | bool b => cases b <;> exact ⟨_, _, rfl, rfl⟩
  | number n =>
    obtain ⟨c, cs, hcs⟩ := List.exists_cons_of_ne_nil (n.chars_ne_nil h)
    refine ⟨c, cs, hcs, if_pos ?_⟩
    apply n.isNumeric_of_mem_chars h
    rw [hcs]
    exact List.mem_cons_self
  | string s => exact ⟨_, _, rfl, rfl⟩
  | array items => cases items <;> exact ⟨_, _, rfl, rfl⟩
  | object fields =>
    cases fields with
    | nil => exact ⟨_, _, rfl, rfl⟩
    | cons f fields => exact ⟨_, _, rfl, rfl⟩

/-- Values of one kind. -/
inductive Akin : Json → Json → Prop
  | null : Akin .null .null
  | bool (b : Bool) : Akin (.bool b) (.bool b)
  | number (n n' : Number) : Akin (.number n) (.number n')
  | string (s s' : String) : Akin (.string s) (.string s')
  | array (items items' : List Json) : Akin (.array items) (.array items')
  | object (fields fields' : List (String × Json)) : Akin (.object fields) (.object fields')

theorem akin_of_mark (h : v.mark = v'.mark) : Akin v v' := by
  rcases v with _ | (_ | _) | _ | _ | _ | _ <;> rcases v' with _ | (_ | _) | _ | _ | _ | _ <;>
    first | constructor | cases h

theorem akin_of_chars (h : v.proper = true) (h' : v'.proper = true)
    (heq : v.chars ++ rest = v'.chars ++ rest') :
    Akin v v' := by
  obtain ⟨c, cs, hchars, hmark⟩ := chars_head h
  obtain ⟨c', cs', hchars', hmark'⟩ := chars_head h'
  rw [hchars, hchars'] at heq
  apply akin_of_mark
  rw [← hmark, ← hmark', (List.cons.inj heq).1]

theorem chars_ne_closing (h : v.proper = true) : v.chars ++ rest ≠ ']' :: rest' := by
  intro heq
  obtain ⟨c, cs, hchars, hmark⟩ := chars_head h
  rw [hchars] at heq
  rw [(List.cons.inj heq).1] at hmark
  have hclosing : ']' = v.mark := hmark
  cases v with
  | bool b => cases b <;> cases hclosing
  | _ => cases hclosing

theorem ends_charsItems (items : List Json) (rest : List Char) :
    Ends (charsItems items ++ rest) := by
  cases items <;> rintro c ⟨rfl⟩ <;> rfl

theorem ends_charsFields (fields : List (String × Json)) (rest : List Char) :
    Ends (charsFields fields ++ rest) := by
  cases fields <;> rintro c ⟨rfl⟩ <;> rfl

mutual

/-- The text of a value tells what it is and where it ends. -/
theorem chars_split :
    ∀ (v : Json) {v' : Json} {rest rest' : List Char}, v.proper = true → v'.proper = true →
    Ends rest → Ends rest' → v.chars ++ rest = v'.chars ++ rest' → v = v' ∧ rest = rest'
  | .null, v', rest, rest', h, h', _, _, heq => by
    cases akin_of_chars h h' heq
    exact ⟨rfl, List.append_cancel_left heq⟩
  | .bool b, v', rest, rest', h, h', _, _, heq => by
    cases akin_of_chars h h' heq
    exact ⟨rfl, List.append_cancel_left heq⟩
  | .number n, v', rest, rest', h, h', hrest, hrest', heq => by
    cases akin_of_chars h h' heq with
    | number n n' =>
      obtain ⟨hn, hrest⟩ :=
        numeric_split (n.isNumeric_of_mem_chars h)
          (n'.isNumeric_of_mem_chars h') hrest hrest' heq
      rw [Number.chars_inj h h' hn]
      exact ⟨rfl, hrest⟩
  | .string s, v', rest, rest', h, h', _, _, heq => by
    cases akin_of_chars h h' heq with
    | string s s' =>
      obtain ⟨rfl, hrest⟩ := quotedChars_split heq
      exact ⟨rfl, hrest⟩
  | .array items, v', rest, rest', h, h', _, _, heq => by
    cases akin_of_chars h h' heq with
    | array items items' =>
      rcases items with _ | ⟨v, items⟩ <;> rcases items' with _ | ⟨v', items'⟩
      · exact ⟨rfl, List.append_cancel_left heq⟩
      · rw [proper, properItems, Bool.and_eq_true] at h'
        exact absurd ((List.append_assoc _ _ _).symm.trans (List.cons.inj heq).2.symm)
          (chars_ne_closing h'.1)
      · rw [proper, properItems, Bool.and_eq_true] at h
        exact absurd ((List.append_assoc _ _ _).symm.trans (List.cons.inj heq).2)
          (chars_ne_closing h.1)
      · obtain ⟨hitems, hrest⟩ :=
          charsItems_split (v :: items) h h' (congrArg (',' :: ·) (List.cons.inj heq).2)
        rw [hitems]
        exact ⟨rfl, hrest⟩
  | .object fields, v', rest, rest', h, h', _, _, heq => by
    cases akin_of_chars h h' heq with
    | object fields fields' =>
      have hfields := (proper_object.1 h).2
      have hfields' := (proper_object.1 h').2
      rcases fields with _ | ⟨⟨k, v⟩, fields⟩ <;> rcases fields' with _ | ⟨⟨k', v'⟩, fields'⟩
      · exact ⟨rfl, List.append_cancel_left heq⟩
      · cases (List.cons.inj (List.cons.inj heq).2).1
      · cases (List.cons.inj (List.cons.inj heq).2).1
      · obtain ⟨hfields, hrest⟩ := charsFields_split ((k, v) :: fields) hfields hfields'
          (congrArg (',' :: ·) (List.cons.inj heq).2)
        rw [hfields]
        exact ⟨rfl, hrest⟩

theorem charsItems_split : ∀ (items : List Json) {items' : List Json} {rest rest' : List Char},
    properItems items = true → properItems items' = true →
    charsItems items ++ rest = charsItems items' ++ rest' → items = items' ∧ rest = rest'
  | [], items', rest, rest', _, _, heq => by
    cases items' with
    | nil => exact ⟨rfl, List.append_cancel_left heq⟩
    | cons v' items' => cases (List.cons.inj heq).1
  | v :: items, items', rest, rest', h, h', heq => by
    cases items' with
    | nil => cases (List.cons.inj heq).1
    | cons v' items' =>
      rw [properItems, Bool.and_eq_true] at h h'
      simp only [charsItems, List.cons_append, List.append_assoc, List.cons.injEq,
        true_and] at heq
      obtain ⟨rfl, hitems⟩ :=
        chars_split v h.1 h'.1 (ends_charsItems _ _) (ends_charsItems _ _) heq
      obtain ⟨rfl, hrest⟩ := charsItems_split items h.2 h'.2 hitems
      exact ⟨rfl, hrest⟩

theorem charsFields_split :
    ∀ (fields : List (String × Json)) {fields' : List (String × Json)} {rest rest' : List Char},
    properFields fields = true → properFields fields' = true →
    charsFields fields ++ rest = charsFields fields' ++ rest' → fields = fields' ∧ rest = rest'
  | [], fields', rest, rest', _, _, heq => by
    cases fields' with
    | nil => exact ⟨rfl, List.append_cancel_left heq⟩
    | cons f' fields' => cases (List.cons.inj heq).1
  | (k, v) :: fields, fields', rest, rest', h, h', heq => by
    cases fields' with
    | nil => cases (List.cons.inj heq).1
    | cons f' fields' =>
      obtain ⟨k', v'⟩ := f'
      rw [properFields, Bool.and_eq_true] at h h'
      simp only [charsFields, List.cons_append, List.append_assoc, List.cons.injEq,
        true_and] at heq
      obtain ⟨rfl, hvalue⟩ := quotedChars_split heq
      obtain ⟨rfl, hfields⟩ :=
        chars_split v h.1 h'.1 (ends_charsFields _ _) (ends_charsFields _ _)
          (List.cons.inj hvalue).2
      obtain ⟨rfl, hrest⟩ := charsFields_split fields h.2 h'.2 hfields
      exact ⟨rfl, hrest⟩

end

section Brackets

/-- Whether a place in a text is outside of quotes, inside, or inside behind a backslash. -/
inductive Mode where
  | plain
  | quoted
  | escaped

/-- Read within a bracket, at a place that has some more brackets around it, a text ends where
the first bracket is closed. -/
def closes : Mode → Nat → List Char → Bool
  | _, _, [] => false
  | .plain, depth, c :: rest =>
    if c = '"' then closes .quoted depth rest
    else if c = '\\' then false
    else if c = '[' ∨ c = '\x7b' then closes .plain (depth + 1) rest
    else if c = ']' ∨ c = '\x7d' then
      if depth = 0 then rest.isEmpty else closes .plain (depth - 1) rest
    else closes .plain depth rest
  | .quoted, depth, c :: rest =>
    if c = '"' then closes .plain depth rest
    else if c = '\\' then closes .escaped depth rest
    else closes .quoted depth rest
  | .escaped, depth, c :: rest => c ≠ '\x7b' && closes .quoted depth rest

variable {depth depth' : Nat} {mode : Mode}

theorem closes_nil (mode : Mode) (depth : Nat) : closes mode depth [] = false := by
  cases mode <;> rfl

theorem depth_eq_of_closes (h : closes mode depth rest = true)
    (h' : closes mode depth' rest = true) :
    depth = depth' := by
  induction rest generalizing mode depth depth' with
  | nil => simp [closes_nil] at h
  | cons c rest ih => cases mode <;> grind [closes, closes_nil]

theorem not_closes_quoted (h : closes .plain depth rest = true) :
    closes .quoted depth' rest = false := by
  induction rest generalizing depth depth' with
  | nil => rfl
  | cons c rest ih =>
    apply Bool.eq_false_iff.2
    intro h'
    simp only [closes] at h h'
    by_cases hquote : c = '"'
    · rw [if_pos hquote] at h h'
      rw [ih h'] at h
      cases h
    · rw [if_neg hquote] at h h'
      grind [closes_nil]

theorem closes_append (h : closes mode depth (cs ++ rest) = true) (hrest : rest ≠ []) :
    ∃ mode depth, closes mode depth rest = true := by
  induction cs generalizing mode depth with
  | nil => exact ⟨mode, depth, h⟩
  | cons c cs ih =>
    have hmore : (cs ++ rest).isEmpty = false := by simp [hrest]
    cases mode <;> grind [closes]

end Brackets

section Scan

variable {depth : Nat} {c : Char}

theorem closes_quoted_cons (hquote : c ≠ '"') (hslash : c ≠ '\\') :
    closes .quoted depth (c :: rest) = closes .quoted depth rest := by
  rw [closes, if_neg hquote, if_neg hslash]

theorem hexDigit_plain : ∀ n < 16, hexDigit n ≠ '"' ∧ hexDigit n ≠ '\\' := by decide

theorem closes_escapeChar (c : Char) :
    closes .quoted depth (escapeChar c ++ rest) = closes .quoted depth rest := by
  unfold escapeChar
  split_ifs with hquote hslash
  any_goals rfl
  next hcontrol =>
    obtain ⟨hhigh, hhigh'⟩ := hexDigit_plain (c.toNat / 16) (by omega)
    obtain ⟨hlow, hlow'⟩ := hexDigit_plain (c.toNat % 16) (by omega)
    change closes .quoted depth (hexDigit (c.toNat / 16) :: hexDigit (c.toNat % 16) :: rest) = _
    rw [closes_quoted_cons hhigh hhigh', closes_quoted_cons hlow hlow']
  · exact closes_quoted_cons hquote hslash

theorem closes_quotedChars (s : String) :
    closes .plain depth (quotedChars s ++ rest) = closes .plain depth rest := by
  have hescaped (cs : List Char) :
      closes .quoted depth (cs.flatMap escapeChar ++ '"' :: rest) =
        closes .plain depth rest := by
    induction cs with
    | nil => rfl
    | cons c cs ih => rw [List.flatMap_cons, List.append_assoc, closes_escapeChar, ih]
  rw [Document.JsonText.quotedChars_append]
  exact hescaped s.toList

theorem closes_numeric (h : ∀ c ∈ cs, isNumeric c = true) :
    closes .plain depth (cs ++ rest) = closes .plain depth rest := by
  induction cs with
  | nil => rfl
  | cons c cs ih =>
    rw [List.forall_mem_cons] at h
    have hne {mark : Char} (hmark : isNumeric mark = false) : c ≠ mark := by
      rintro rfl
      rw [h.1] at hmark
      cases hmark
    rw [← ih h.2, List.cons_append, closes, if_neg (hne rfl), if_neg (hne rfl),
      if_neg (not_or.2 ⟨hne rfl, hne rfl⟩), if_neg (not_or.2 ⟨hne rfl, hne rfl⟩)]

mutual

/-- The text of a value leaves no bracket open. -/
theorem closes_chars : ∀ (v : Json) {depth : Nat} {rest : List Char}, v.proper = true →
    closes .plain depth (v.chars ++ rest) = closes .plain depth rest
  | .null, depth, rest, _ => rfl
  | .bool true, depth, rest, _ => rfl
  | .bool false, depth, rest, _ => rfl
  | .number n, depth, rest, h => closes_numeric (n.isNumeric_of_mem_chars h)
  | .string s, depth, rest, _ => closes_quotedChars s
  | .array [], depth, rest, _ => rfl
  | .array (v :: items), depth, rest, h => by
    rw [proper, properItems, Bool.and_eq_true] at h
    rw [chars, List.append_assoc, List.cons_append]
    change closes .plain (depth + 1) (v.chars ++ (charsItems items ++ rest)) = _
    rw [closes_chars v h.1, closes_charsItems items h.2]
    rfl
  | .object [], depth, rest, _ => rfl
  | .object ((k, v) :: fields), depth, rest, h => by
    have hfields := (proper_object.1 h).2
    rw [properFields, Bool.and_eq_true] at hfields
    simp only [chars, List.append_assoc, List.cons_append]
    change closes .plain (depth + 1)
      (quotedChars k ++ (':' :: (v.chars ++ (charsFields fields ++ rest)))) = _
    rw [closes_quotedChars]
    change closes .plain (depth + 1) (v.chars ++ (charsFields fields ++ rest)) = _
    rw [closes_chars v hfields.1, closes_charsFields fields hfields.2]
    rfl

theorem closes_charsItems :
    ∀ (items : List Json) {depth : Nat} {rest : List Char}, properItems items = true →
    closes .plain depth (charsItems items ++ rest) = closes .plain depth (']' :: rest)
  | [], depth, rest, _ => rfl
  | v :: items, depth, rest, h => by
    rw [properItems, Bool.and_eq_true] at h
    rw [charsItems, List.append_assoc, List.cons_append]
    change closes .plain depth (v.chars ++ (charsItems items ++ rest)) = _
    rw [closes_chars v h.1, closes_charsItems items h.2]

theorem closes_charsFields : ∀ (fields : List (String × Json)) {depth : Nat} {rest : List Char},
    properFields fields = true →
    closes .plain depth (charsFields fields ++ rest) = closes .plain depth ('\x7d' :: rest)
  | [], depth, rest, _ => rfl
  | (k, v) :: fields, depth, rest, h => by
    rw [properFields, Bool.and_eq_true] at h
    simp only [charsFields, List.append_assoc, List.cons_append]
    change closes .plain depth
      (quotedChars k ++ (':' :: (v.chars ++ (charsFields fields ++ rest)))) = _
    rw [closes_quotedChars]
    change closes .plain depth (v.chars ++ (charsFields fields ++ rest)) = _
    rw [closes_chars v h.1, closes_charsFields fields h.2]

end

theorem closes_object {fields : List (String × Json)} (h : (object fields).proper = true) :
    ∃ body, (object fields).chars = '\x7b' :: body ∧ closes .plain 0 body = true := by
  have hfields := (proper_object.1 h).2
  cases fields with
  | nil => exact ⟨_, rfl, rfl⟩
  | cons f fields =>
    refine ⟨_, rfl, ?_⟩
    -- After the first field what follows is as after a comma.
    have hcomma :
        closes .plain 0 (charsFields (f :: fields) ++ []) = closes .plain 0 ['\x7d'] :=
      closes_charsFields (f :: fields) hfields
    rw [List.append_nil] at hcomma
    exact hcomma

/-- No text of an object has the text of an object for a proper suffix. -/
theorem chars_suffix {fields fields' : List (String × Json)} (h : (object fields).proper = true)
    (h' : (object fields').proper = true)
    (hsuffix : (object fields).chars = cs ++ (object fields').chars) :
    cs = [] := by
  obtain ⟨body, hbody, hcloses⟩ := closes_object h
  obtain ⟨body', hbody', hcloses'⟩ := closes_object h'
  rw [hbody, hbody'] at hsuffix
  cases cs with
  | nil => rfl
  | cons c cs =>
    rw [(List.cons.inj hsuffix).2] at hcloses
    obtain ⟨mode, depth, hinside⟩ := closes_append hcloses (List.cons_ne_nil _ _)
    exfalso
    cases mode with
    | plain =>
      have hdeeper : closes .plain (depth + 1) body' = true := hinside
      cases depth_eq_of_closes hcloses' hdeeper
    | quoted =>
      have hquoted : closes .quoted depth body' = true := hinside
      rw [not_closes_quoted hcloses'] at hquoted
      cases hquoted
    | escaped => cases hinside

theorem eq_of_append_chars {fields fields' : List (String × Json)}
    (h : (object fields).proper = true) (h' : (object fields').proper = true)
    (heq : cs ++ (object fields).chars = cs' ++ (object fields').chars) :
    cs = cs' ∧ fields = fields' := by
  have hsame : cs = cs' := by
    rcases List.append_eq_append_iff.1 heq with ⟨more, hcs, hchars⟩ | ⟨more, hcs, hchars⟩
    · rw [hcs, chars_suffix h h' hchars, List.append_nil]
    · rw [hcs, chars_suffix h' h hchars, List.append_nil]
  subst hsame
  have hends : Ends [] := nofun
  have hchars :=
    (List.append_nil _).trans ((List.append_cancel_left heq).trans (List.append_nil _).symm)
  obtain ⟨hobject, _⟩ := chars_split (object fields) h h' hends hends hchars
  exact ⟨rfl, object.inj hobject⟩

end Scan

end Json

end DataPipeline
