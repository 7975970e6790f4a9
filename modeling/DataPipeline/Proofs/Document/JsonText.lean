import DataPipeline.Document.JsonText
import Mathlib.Data.List.DropRight
import Mathlib.Tactic.Common

namespace DataPipeline

namespace Json

mutual

/-- No number is a part of the value. -/
def numberless : Json → Bool
  | .null | .bool _ | .string _ => true
  | .number _ => false
  | .array items => numberlessItems items
  | .object fields => numberlessFields fields

def numberlessItems : List Json → Bool
  | [] => true
  | v :: rest => numberless v && numberlessItems rest

def numberlessFields : List (String × Json) → Bool
  | [] => true
  | (_, v) :: rest => numberless v && numberlessFields rest

end

theorem numberlessItems_map {α : Type} {as : List α} {f : α → Json}
    (h : ∀ a ∈ as, (f a).numberless = true) :
    numberlessItems (as.map f) = true := by
  induction as with
  | nil => rfl
  | cons a as ih =>
    rw [List.map_cons, numberlessItems, h a List.mem_cons_self,
      ih fun a ha => h a (List.mem_cons_of_mem _ ha)]
    rfl

end Json

namespace Document

namespace JsonText

variable {tail : List Char} {fuel : Nat}

theorem bytesAhead_four {m : Mark} {a b d e : Char} (ha : a.utf8Size = 1) (hb : b.utf8Size = 1)
    (hd : d.utf8Size = 1) (he : e.utf8Size = 1) :
    ∃ m', Cursor.bytesAhead m 4 (a :: b :: d :: e :: tail) = some m' := by
  simp [Cursor.bytesAhead, ha, hb, hd, he]

theorem hexDigits_control : ∀ n < 32,
    (Json.hexDigit (n / 16)).utf8Size = 1 ∧ (Json.hexDigit (n % 16)).utf8Size = 1 ∧
      ['0', '0', Json.hexDigit (n / 16), Json.hexDigit (n % 16)].mapM hexValue? =
        some [0, 0, n / 16, n % 16] := by
  decide

theorem unitEscape_control {n : Nat} (hn : n < 32) (tail : List Char) (m : Mark) :
    ∃ m', unitEscape
      ⟨'0' :: '0' :: Json.hexDigit (n / 16) :: Json.hexDigit (n % 16) :: tail, m⟩ =
      .ok (Char.ofNat n, ⟨tail, m'⟩) := by
  obtain ⟨ha, hb, hvalues⟩ := hexDigits_control n hn
  obtain ⟨place, hplace⟩ : ∃ place, Cursor.bytesAhead m 4
      ('0' :: '0' :: Json.hexDigit (n / 16) :: Json.hexDigit (n % 16) :: tail) = some place :=
    bytesAhead_four rfl rfl ha hb
  have hvalue : ((0 * 16 + 0) * 16 + n / 16) * 16 + n % 16 = n := by omega
  have hlow : ¬(0xDC00 ≤ n ∧ n ≤ 0xDFFF) := by omega
  have hplain : n < 0xD800 ∨ 0xDBFF < n := by omega
  refine ⟨(((m.past '0').past '0').past (Json.hexDigit (n / 16))).past (Json.hexDigit (n % 16)),
    ?_⟩
  rw [unitEscape, fourHex]
  simp only [hplace, List.take, hvalues, hvalue, bind, Except.bind, hlow, hplain, ↓reduceIte]
  rfl

theorem readString_plain {ch : Char} (hquote : ch ≠ '"') (hslash : ch ≠ '\\')
    (hcontrol : ¬ch.toNat < 32) (acc : List Char) (m : Mark) :
    readString (fuel + 1) acc ⟨ch :: tail, m⟩ =
      readString fuel (ch :: acc) ⟨tail, m.past ch⟩ := by
  rw [readString]
  split
  next h => cases h
  next h =>
    cases h
    exact absurd rfl hquote
  next h =>
    cases h
    exact absurd rfl hslash
  next h =>
    cases h
    rw [if_neg hcontrol]
    rfl

theorem readString_short {e ch : Char} (he : e ≠ 'u') (h : escaped? e = some ch)
    (acc : List Char) (m : Mark) : readString (fuel + 1) acc ⟨['\\', e] ++ tail, m⟩ =
      readString fuel (ch :: acc) ⟨tail, (m.past '\\').past e⟩ := by
  rw [List.cons_append, List.singleton_append, readString]
  simp only [Cursor.next]
  rw [h]

/-- The characters that have a letter, which is written for them after a backslash. -/
def lettered : List Char := ['"', '\\', '\x08', '\t', '\n', '\x0c', '\r']

theorem escapeChar_lettered {ch : Char} (h : ch ∈ lettered) :
    ∃ e, Json.escapeChar ch = ['\\', e] ∧ escaped? e = some ch ∧ e ≠ 'u' := by
  simp only [lettered, List.mem_cons, List.not_mem_nil, or_false] at h
  rcases h with rfl | rfl | rfl | rfl | rfl | rfl | rfl
  all_goals exact ⟨_, rfl, rfl, by decide⟩

theorem escapeChar_of_notMem {ch : Char} (h : ch ∉ lettered) : Json.escapeChar ch =
    if ch.toNat < 32 then
      ['\\', 'u', '0', '0', Json.hexDigit (ch.toNat / 16), Json.hexDigit (ch.toNat % 16)]
    else [ch] := by
  simp only [lettered, List.mem_cons, List.not_mem_nil, or_false, not_or] at h
  simp only [Json.escapeChar, h, if_false]

/-- A character as it is written inside quotes is read as itself. -/
theorem readString_escapeChar (ch : Char) (acc tail : List Char) (m : Mark) :
    ∃ m', readString (fuel + 1) acc ⟨Json.escapeChar ch ++ tail, m⟩ =
      readString fuel (ch :: acc) ⟨tail, m'⟩ := by
  by_cases hletter : ch ∈ lettered
  · obtain ⟨e, hescape, he, hu⟩ := escapeChar_lettered hletter
    rw [hescape]
    exact ⟨_, readString_short hu he acc m⟩
  rw [escapeChar_of_notMem hletter]
  split
  next hcontrol =>
    obtain ⟨m', hm'⟩ := unitEscape_control hcontrol tail ((m.past '\\').past 'u')
    refine ⟨m', ?_⟩
    rw [readString]
    change (unitEscape
      ⟨'0' :: '0' :: Json.hexDigit (ch.toNat / 16) :: Json.hexDigit (ch.toNat % 16) :: tail,
      (m.past '\\').past 'u'⟩ >>= _) = _
    rw [hm', Char.ofNat_toNat]
    rfl
  next hcontrol =>
    have hquote : ch ≠ '"' := by
      rintro rfl
      exact hletter (by simp [lettered])
    have hslash : ch ≠ '\\' := by
      rintro rfl
      exact hletter (by simp [lettered])
    exact ⟨_, readString_plain hquote hslash hcontrol acc m⟩

/-- A text is read as it was written, up to its closing quote. -/
theorem readString_escaped (s acc tail : List Char) (hfuel : s.length < fuel) (m : Mark) :
    ∃ m', readString fuel acc ⟨s.flatMap Json.escapeChar ++ '"' :: tail, m⟩ =
      .ok (String.ofList (acc.reverse ++ s), ⟨tail, m'⟩) := by
  induction s generalizing fuel acc m with
  | nil =>
    obtain ⟨fuel, rfl⟩ := Nat.exists_eq_add_of_lt hfuel
    refine ⟨m.past '"', ?_⟩
    rw [List.append_nil]
    rfl
  | cons ch s ih =>
    cases fuel with
    | zero => cases hfuel
    | succ fuel =>
      rw [List.flatMap_cons, List.append_assoc]
      obtain ⟨m', hm'⟩ :=
        readString_escapeChar ch acc (s.flatMap Json.escapeChar ++ '"' :: tail) m
      rw [hm']
      obtain ⟨m'', hm''⟩ := ih (ch :: acc) (Nat.lt_of_succ_lt_succ hfuel) m'
      refine ⟨m'', ?_⟩
      rw [hm'', List.reverse_cons, List.append_assoc]
      rfl

theorem one_le_length_escapeChar (ch : Char) : 1 ≤ (Json.escapeChar ch).length := by
  unfold Json.escapeChar
  split_ifs <;> simp

theorem length_le_escaped (s : List Char) : s.length ≤ (s.flatMap Json.escapeChar).length := by
  induction s with
  | nil => exact Nat.le_refl _
  | cons ch s ih =>
    have hch := one_le_length_escapeChar ch
    rw [List.flatMap_cons, List.length_append, List.length_cons]
    omega

theorem stringDoc_quoted (start : Cursor) (s : String) (tail : List Char) (m : Mark) :
    ∃ span m', stringDoc start ⟨s.toList.flatMap Json.escapeChar ++ '"' :: tail, m⟩ =
      (.scalar (.typed (.string s)) span, some ⟨tail, m'⟩) := by
  have hfuel :
      s.toList.length < (s.toList.flatMap Json.escapeChar ++ '"' :: tail).length + 1 := by
    have hlength := length_le_escaped s.toList
    rw [List.length_append]
    omega
  obtain ⟨m', hm'⟩ := readString_escaped s.toList [] tail hfuel m
  refine ⟨⟨m', start.ahead, m'⟩, m', ?_⟩
  rw [stringDoc]
  simp only [hm', List.reverse_nil, List.nil_append, String.ofList_toList]

end JsonText

mutual

/-- A document holds a value: it is the document of the value but for its places. -/
inductive Holds : Doc → Json → Prop where
  | null (span : Span) : Holds (.scalar (.typed .null) span) .null
  | bool (b : Bool) (span : Span) : Holds (.scalar (.typed (.bool b)) span) (.bool b)
  | string (s : String) (span : Span) : Holds (.scalar (.typed (.string s)) span) (.string s)
  | array {ds : List Doc} {vs : List Json} (span : Span) (h : HoldsItems ds vs) :
    Holds (.sequence ds .closed false span) (.array vs)
  | object {es : List Entry} {fields : List (String × Json)} (span : Span)
      (h : HoldsFields es fields) :
    Holds (.mapping es .closed false span) (.object fields)

inductive HoldsItems : List Doc → List Json → Prop where
  | nil : HoldsItems [] []
  | cons {d : Doc} {v : Json} {ds : List Doc} {vs : List Json} (hd : Holds d v)
      (hds : HoldsItems ds vs) :
    HoldsItems (d :: ds) (v :: vs)

inductive HoldsFields : List Entry → List (String × Json) → Prop where
  | nil : HoldsFields [] []
  | cons {d : Doc} {v : Json} {es : List Entry} {fields : List (String × Json)} (key : String)
    (span : Span) (place : Mark) (hd : Holds d v) (hes : HoldsFields es fields) :
    HoldsFields (.mk (.scalar (.typed (.string key)) span) place d :: es) ((key, v) :: fields)

end

namespace JsonText

variable {c c' : Cursor} {v : Json} {vs : List Json} {fields : List (String × Json)}
  {d : Doc} {level : Nat} {rest mid : List Char} {ch : Char} {key : String}

theorem next_rest (h : c.rest = ch :: rest) : c.next.rest = rest := by
  rw [Cursor.next, h]

theorem prettyChars_head (level : Nat) (hv : v.numberless = true) :
    ∃ ch rest, v.prettyChars level = ch :: rest ∧
    Cursor.isBlank ch = false ∧ ch ≠ ']' := by
  cases v with
  | null => exact ⟨_, _, rfl, rfl, by decide⟩
  | bool b => cases b <;> exact ⟨_, _, rfl, rfl, by decide⟩
  | number n => cases hv
  | string s => exact ⟨_, _, rfl, rfl, by decide⟩
  | array items => cases items <;> exact ⟨_, _, rfl, rfl, by decide⟩
  | object fields =>
    cases fields with
    | nil => exact ⟨_, _, rfl, rfl, by decide⟩
    | cons f rest => exact ⟨_, _, rfl, rfl, by decide⟩

theorem length_newline (level : Nat) : (Json.newline level).length = 2 * level + 1 := by
  rw [Json.newline, List.length_cons, List.length_replicate]

theorem quotedChars_append (s : String) (rest : List Char) :
    Json.quotedChars s ++ rest = '"' :: (s.toList.flatMap Json.escapeChar ++ '"' :: rest) := by
  simp [Json.quotedChars]

section Blanks

theorem blanks_blanks (c : Cursor) : c.blanks.blanks.rest = c.blanks.rest :=
  List.dropWhile_idempotent _ _

theorem blanks_mark (h : c.rest = ch :: tail) (hch : Cursor.isBlank ch = false) :
    c.blanks.rest = ch :: tail := by
  change c.rest.dropWhile Cursor.isBlank = _
  rw [h, List.dropWhile_cons_of_neg (by simp [hch])]

theorem blanks_newline (h : c.rest = Json.newline level ++ tail) :
    c.blanks.rest = tail.dropWhile Cursor.isBlank := by
  have hblank : ∀ ch ∈ Json.newline level, Cursor.isBlank ch = true := by
    simp [Json.newline, Cursor.isBlank]
  change c.rest.dropWhile Cursor.isBlank = _
  rw [h, List.dropWhile_append_of_pos hblank]

theorem blanks_quoted (h : c.rest = Json.newline level ++ (Json.quotedChars key ++ tail)) :
    c.blanks.rest = Json.quotedChars key ++ tail := by
  rw [blanks_newline h, quotedChars_append]
  rfl

theorem blanks_pretty (hv : v.numberless = true)
    (h : c.rest = Json.newline level ++ (v.prettyChars level ++ tail)) :
    c.blanks.rest = v.prettyChars level ++ tail ∧
      ∃ ch rest, c.blanks.rest = ch :: rest ∧ ch ≠ ']' := by
  obtain ⟨ch, rest, hchars, hblank, hch⟩ := prettyChars_head level hv
  have hrest : c.blanks.rest = v.prettyChars level ++ tail := by
    rw [blanks_newline h, hchars, List.cons_append,
      List.dropWhile_cons_of_neg (by simp [hblank])]
  exact ⟨hrest, ch, rest ++ tail, by rw [hrest, hchars, List.cons_append], hch⟩

theorem blanks_space (hv : v.numberless = true)
    (h : c.rest = ' ' :: (v.prettyChars level ++ tail)) :
    c.blanks.rest = v.prettyChars level ++ tail := by
  obtain ⟨ch, rest, hchars, hblank, _⟩ := prettyChars_head level hv
  change c.rest.dropWhile Cursor.isBlank = _
  rw [h, List.dropWhile_cons_of_pos rfl, hchars, List.cons_append,
    List.dropWhile_cons_of_neg (by simp [hblank])]

end Blanks

/-- What is read is a document that holds a value, and `tail` is left. -/
def Takes (x : Doc × Option Cursor) (v : Json) (tail : List Char) : Prop :=
  ∃ d c, x = (d, some c) ∧ c.rest = tail ∧ Holds d v

def TakesItems (x : List Doc × Ending × Option Cursor) (vs : List Json)
    (tail : List Char) : Prop :=
  ∃ ds c, x = (ds, .closed, some c) ∧ c.rest = tail ∧ HoldsItems ds vs

def TakesFields (x : List Entry × Ending × Option Cursor) (fields : List (String × Json))
    (tail : List Char) : Prop :=
  ∃ es c, x = (es, .closed, some c) ∧ c.rest = tail ∧ HoldsFields es fields

theorem items_closing {first : Bool} (h : c.blanks.rest = ']' :: tail) :
    TakesItems (items (fuel + 1) first c) [] tail := by
  rw [items]
  simp only [h]
  exact ⟨_, _, rfl, next_rest h, .nil⟩

theorem items_first (h : c.blanks.rest = ch :: rest) (hch : ch ≠ ']') :
    items (fuel + 1) true c = itemsFrom fuel c.blanks := by
  rw [items]
  simp [h]

theorem items_next (h : c.blanks.rest = ',' :: rest)
    (hnext : c.blanks.next.blanks.rest = ch :: tail) (hch : ch ≠ ']') :
    items (fuel + 1) false c = itemsFrom fuel c.blanks.next.blanks := by
  rw [items]
  simp [h, hnext, hch]

theorem Takes.items (hv : Takes (value fuel c) v mid)
    (hvs : ∀ c' : Cursor, c'.rest = mid → TakesItems (items fuel false c') vs tail) :
    TakesItems (itemsFrom (fuel + 1) c) (v :: vs) tail := by
  obtain ⟨d, c', hd, hc', hdoc⟩ := hv
  obtain ⟨ds, c'', hds, hc'', hdocs⟩ := hvs c' hc'
  refine ⟨d :: ds, c'', ?_, hc'', .cons hdoc hdocs⟩
  rw [itemsFrom, hd]
  simp only [hds]

theorem TakesItems.value (h : c.blanks.rest = '[' :: rest)
    (hvs : TakesItems (JsonText.items fuel true c.blanks.next) vs tail) :
    Takes (value (fuel + 1) c) (.array vs) tail := by
  obtain ⟨ds, c', hds, hc', hdocs⟩ := hvs
  rw [JsonText.value]
  simp only [h, hds]
  exact ⟨_, _, rfl, hc', .array _ hdocs⟩

theorem entries_closing {first : Bool} (h : c.blanks.rest = '}' :: tail) :
    TakesFields (entries (fuel + 1) first c) [] tail := by
  rw [entries]
  simp only [h]
  exact ⟨_, _, rfl, next_rest h, .nil⟩

theorem entries_first (h : c.blanks.rest = Json.quotedChars key ++ tail) :
    entries (fuel + 1) true c = entriesFrom fuel c.blanks := by
  rw [quotedChars_append] at h
  rw [entries]
  simp [h]

theorem entries_next (h : c.blanks.rest = ',' :: rest)
    (hnext : c.blanks.next.blanks.rest = Json.quotedChars key ++ tail) :
    entries (fuel + 1) false c = entriesFrom fuel c.blanks.next.blanks := by
  rw [quotedChars_append] at hnext
  rw [entries]
  simp [h, hnext]

theorem takesFields_entriesFrom (h : c.rest = Json.quotedChars key ++ ':' :: rest)
    (hv : ∀ c' : Cursor, c'.rest = rest → Takes (value fuel c') v mid)
    (hfields : ∀ c' : Cursor, c'.rest = mid → TakesFields (entries fuel false c') fields tail) :
    TakesFields (entriesFrom (fuel + 1) c) ((key, v) :: fields) tail := by
  obtain ⟨chars, m⟩ := c
  rw [quotedChars_append] at h
  cases (h : chars = _)
  obtain ⟨span, m', hkey⟩ := stringDoc_quoted
    ⟨'"' :: (key.toList.flatMap Json.escapeChar ++ '"' :: ':' :: rest), m⟩ key
      (':' :: rest) (m.past '"')
  obtain ⟨d, c', hd, hc', hdoc⟩ := hv ⟨rest, m'.past ':'⟩ rfl
  obtain ⟨es, c'', hes, hc'', hdocs⟩ := hfields c' hc'
  have hcolon : (Cursor.mk (':' :: rest) m').blanks = ⟨':' :: rest, m'⟩ := rfl
  refine ⟨.mk (.scalar (.typed (.string key)) span) m' d :: es, c'', ?_, hc'',
    .cons key span m' hdoc hdocs⟩
  rw [entriesFrom, Cursor.next, hkey]
  simp only [hcolon, colon, pastBrace, Cursor.next, hd, hes]
  rfl

theorem TakesFields.value (h : c.blanks.rest = '{' :: rest)
    (hfields : TakesFields (entries fuel true c.blanks.next) fields tail) :
    Takes (value (fuel + 1) c) (.object fields) tail := by
  obtain ⟨es, c', hes, hc', hdocs⟩ := hfields
  rw [JsonText.value]
  simp only [h, hes]
  exact ⟨_, _, rfl, hc', .object _ hdocs⟩

theorem blanks_next_mark (h : c.blanks.rest = ch :: rest) {mark : Char}
    (hrest : rest = mark :: tail) (hmark : Cursor.isBlank mark = false) :
    c.blanks.next.blanks.rest = mark :: tail :=
  blanks_mark ((next_rest h).trans hrest) hmark

mutual

/-- The indented text of a value is read up to its end. The fuel pays for the containers too:
each has a text that is longer than the calls it takes to enter it. -/
theorem value_pretty : ∀ (v : Json) (fuel : Nat) {level : Nat} {c : Cursor} {tail : List Char},
    v.numberless = true → c.blanks.rest = v.prettyChars level ++ tail →
    3 * (v.prettyChars level).length ≤ fuel → Takes (value fuel c) v tail
  | v, 0, level, c, tail, hv, hc, hfuel => by
    obtain ⟨ch, rest, hchars, _⟩ := prettyChars_head level hv
    rw [hchars, List.length_cons] at hfuel
    omega
  | .null, fuel + 1, level, c, tail, hv, hc, hfuel => by
    rw [value]
    generalize c.blanks = c at hc
    obtain ⟨_, m⟩ := c
    cases hc
    exact ⟨_, _, rfl, rfl, .null _⟩
  | .bool b, fuel + 1, level, c, tail, hv, hc, hfuel => by
    rw [value]
    generalize c.blanks = c at hc
    obtain ⟨_, m⟩ := c
    cases b
    · cases hc
      exact ⟨_, _, rfl, rfl, .bool _ _⟩
    · cases hc
      exact ⟨_, _, rfl, rfl, .bool _ _⟩
  | .number _, _, _, _, _, hv, _, _ => nomatch hv
  | .string s, fuel + 1, level, c, tail, hv, hc, hfuel => by
    rw [value]
    generalize c.blanks = c at hc
    obtain ⟨_, m⟩ := c
    rw [Json.prettyChars, quotedChars_append] at hc
    cases hc
    obtain ⟨span, m', hs⟩ := stringDoc_quoted
      ⟨'"' :: (s.toList.flatMap Json.escapeChar ++ '"' :: tail), m⟩ s tail (m.past '"')
    exact ⟨_, _, hs, rfl, .string _ _⟩
  | .array [], fuel + 1, level, c, tail, hv, hc, hfuel => by
    have hfuel : 6 ≤ fuel + 1 := hfuel
    obtain ⟨fuel, rfl⟩ := Nat.exists_eq_add_of_le' (show 1 ≤ fuel by omega)
    exact TakesItems.value hc (items_closing (blanks_next_mark hc rfl rfl))
  | .array (v :: vs), fuel + 1, level, c, tail, hv, hc, hfuel => by
    simp only [Json.numberless, Json.numberlessItems, Bool.and_eq_true] at hv
    simp only [Json.prettyChars, List.length_append, List.length_cons, length_newline] at hfuel
    obtain ⟨fuel, rfl⟩ := Nat.exists_eq_add_of_le' (show 2 ≤ fuel by omega)
    simp only [Json.prettyChars, List.cons_append, List.append_assoc] at hc
    obtain ⟨hblanks, ch, rest, hhead, hch⟩ := blanks_pretty hv.1 (next_rest hc)
    have hitem := value_pretty v fuel hv.1 ((blanks_blanks _).trans hblanks) (by omega)
    have hitems := hitem.items fun c' hc' => items_pretty vs fuel hv.2 hc' (by omega)
    rw [← items_first hhead hch] at hitems
    exact hitems.value hc
  | .object [], fuel + 1, level, c, tail, hv, hc, hfuel => by
    have hfuel : 6 ≤ fuel + 1 := hfuel
    obtain ⟨fuel, rfl⟩ := Nat.exists_eq_add_of_le' (show 1 ≤ fuel by omega)
    exact TakesFields.value hc (entries_closing (blanks_next_mark hc rfl rfl))
  | .object ((key, v) :: fields), fuel + 1, level, c, tail, hv, hc, hfuel => by
    simp only [Json.numberless, Json.numberlessFields, Bool.and_eq_true] at hv
    simp only [Json.prettyChars, List.length_append, List.length_cons, length_newline] at hfuel
    obtain ⟨fuel, rfl⟩ := Nat.exists_eq_add_of_le' (show 2 ≤ fuel by omega)
    simp only [Json.prettyChars, List.cons_append, List.append_assoc] at hc
    have hblanks := blanks_quoted (next_rest hc)
    have hentries := takesFields_entriesFrom hblanks
      (fun c' hc' => value_pretty v fuel hv.1 (blanks_space hv.1 hc') (by omega))
      fun c' hc' => entries_pretty fields fuel hv.2 hc' (by omega)
    rw [← entries_first hblanks] at hentries
    exact hentries.value hc

theorem items_pretty :
    ∀ (vs : List Json) (fuel : Nat) {level : Nat} {c : Cursor} {tail : List Char},
    Json.numberlessItems vs = true → c.rest = Json.prettyItems level vs ++ tail →
    3 * (Json.prettyItems level vs).length ≤ fuel → TakesItems (items fuel false c) vs tail
  | [], fuel, level, c, tail, hvs, hc, hfuel => by
    simp only [Json.prettyItems, List.length_append, List.length_cons, length_newline] at hfuel
    obtain ⟨fuel, rfl⟩ := Nat.exists_eq_add_of_le' (show 1 ≤ fuel by omega)
    simp only [Json.prettyItems, List.append_assoc] at hc
    exact items_closing (blanks_newline hc)
  | v :: vs, fuel, level, c, tail, hvs, hc, hfuel => by
    simp only [Json.numberlessItems, Bool.and_eq_true] at hvs
    simp only [Json.prettyItems, List.length_append, List.length_cons, length_newline] at hfuel
    obtain ⟨fuel, rfl⟩ := Nat.exists_eq_add_of_le' (show 2 ≤ fuel by omega)
    simp only [Json.prettyItems, List.cons_append, List.append_assoc] at hc
    have hcomma := blanks_mark hc rfl
    obtain ⟨hblanks, ch, rest, hhead, hch⟩ := blanks_pretty hvs.1 (next_rest hcomma)
    have hitem := value_pretty v fuel hvs.1 ((blanks_blanks _).trans hblanks) (by omega)
    rw [items_next hcomma hhead hch]
    exact hitem.items fun c' hc' => items_pretty vs fuel hvs.2 hc' (by omega)

theorem entries_pretty :
    ∀ (fields : List (String × Json)) (fuel : Nat) {level : Nat} {c : Cursor}
    {tail : List Char},
    Json.numberlessFields fields = true → c.rest = Json.prettyFields level fields ++ tail →
    3 * (Json.prettyFields level fields).length ≤ fuel →
    TakesFields (entries fuel false c) fields tail
  | [], fuel, level, c, tail, hfields, hc, hfuel => by
    simp only [Json.prettyFields, List.length_append, List.length_cons, length_newline] at hfuel
    obtain ⟨fuel, rfl⟩ := Nat.exists_eq_add_of_le' (show 1 ≤ fuel by omega)
    simp only [Json.prettyFields, List.append_assoc] at hc
    exact entries_closing (blanks_newline hc)
  | (key, v) :: fields, fuel, level, c, tail, hfields, hc, hfuel => by
    simp only [Json.numberlessFields, Bool.and_eq_true] at hfields
    simp only [Json.prettyFields, List.length_append, List.length_cons, length_newline] at hfuel
    obtain ⟨fuel, rfl⟩ := Nat.exists_eq_add_of_le' (show 2 ≤ fuel by omega)
    simp only [Json.prettyFields, List.cons_append, List.append_assoc] at hc
    have hcomma := blanks_mark hc rfl
    have hblanks := blanks_quoted (next_rest hcomma)
    rw [entries_next hcomma hblanks]
    apply takesFields_entriesFrom hblanks
    · intro c' hc'
      exact value_pretty v fuel hfields.1 (blanks_space hfields.1 hc') (by omega)
    · intro c' hc'
      exact entries_pretty fields fuel hfields.2 hc' (by omega)

end

end JsonText

theorem ofJsonText_pretty {v : Json} (hv : v.numberless = true) :
    ∃ d, Doc.ofJsonText v.pretty = (d, none) ∧ Holds d v := by
  obtain ⟨ch, rest, hchars, hblank, _⟩ := JsonText.prettyChars_head 0 hv
  have hstart : (Cursor.mk (v.prettyChars 0) ⟨1, 0⟩).blanks.rest = v.prettyChars 0 ++ [] := by
    rw [List.append_nil]
    exact (JsonText.blanks_mark hchars hblank).trans hchars.symm
  obtain ⟨d, c, hd, hc, hdoc⟩ := JsonText.value_pretty v
    (3 * (v.prettyChars 0).length + 3) hv hstart (by omega)
  have hend : c.blanks.rest.isEmpty = true := by
    change (c.rest.dropWhile Cursor.isBlank).isEmpty = true
    rw [hc]
    rfl
  refine ⟨d, ?_, hdoc⟩
  rw [Doc.ofJsonText, Json.pretty, String.toList_ofList]
  simp only [hd]
  rw [if_pos hend]

end Document

end DataPipeline
