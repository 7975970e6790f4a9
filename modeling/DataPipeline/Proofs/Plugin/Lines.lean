import DataPipeline.Plugin.Datajets
import DataPipeline.Proofs.Json.Compact

namespace DataPipeline

namespace Json

open Decimal

theorem newline_of_isNumeric {cs : List Char} (h : ∀ c ∈ cs, isNumeric c = true) :
    '\n' ∉ cs := by
  intro hmem
  have hnumeric := h _ hmem
  revert hnumeric
  decide

theorem newline_notMem_number (n : Number) : '\n' ∉ n.chars := by
  cases n with
  | int k => exact newline_of_isNumeric fun c hc =>
    (Number.isNumeric_of_mem_toString k c hc).2.2
  | double x =>
    rw [Number.chars]
    cases hb : Binary.ofFloat? x with
    | none => simp [shortestChars, hb]
    | some b =>
      rw [shortestChars_eq hb, List.mem_append, not_or]
      refine ⟨?_, newline_of_isNumeric (isNumeric_of_mem_bodyChars b)⟩
      split <;> decide

theorem newline_notMem_escapeChar (c : Char) : '\n' ∉ escapeChar c := by
  have hdigit : ∀ n < 16, '\n' ≠ hexDigit n := by decide
  by_cases hc : c ∈ Document.JsonText.lettered
  · obtain ⟨e, he, hread, _⟩ := Document.JsonText.escapeChar_lettered hc
    rw [he, List.mem_cons, List.mem_singleton, not_or]
    refine ⟨by decide, ?_⟩
    rintro rfl
    cases hread
  · rw [Document.JsonText.escapeChar_of_notMem hc]
    split
    next hcontrol =>
      have hlow := hdigit (c.toNat / 16) (by omega)
      have hhigh := hdigit (c.toNat % 16) (by omega)
      simp [hlow, hhigh]
    · rw [List.mem_singleton]
      rintro rfl
      exact hc (by decide)

theorem newline_notMem_quotedChars (s : String) : '\n' ∉ quotedChars s := by
  simp [quotedChars, newline_notMem_escapeChar]

mutual

theorem newline_notMem_chars : ∀ v : Json, '\n' ∉ v.chars
  | .null | .bool true | .bool false | .array [] | .object [] => by decide
  | .number n => newline_notMem_number n
  | .string s => newline_notMem_quotedChars s
  | .array (v :: items) =>
    by simp [chars, newline_notMem_chars v, newline_notMem_charsItems items]
  | .object ((k, v) :: fields) => by
    simp [chars, newline_notMem_quotedChars k, newline_notMem_chars v,
      newline_notMem_charsFields fields]

theorem newline_notMem_charsItems : ∀ items : List Json, '\n' ∉ charsItems items
  | [] => by decide
  | v :: items => by simp [charsItems, newline_notMem_chars v, newline_notMem_charsItems items]

theorem newline_notMem_charsFields : ∀ fields : List (String × Json), '\n' ∉ charsFields fields
  | [] => by decide
  | (k, v) :: fields => by
    simp [charsFields, newline_notMem_quotedChars k, newline_notMem_chars v,
      newline_notMem_charsFields fields]

end

theorem newline_notMem_compact (v : Json) : '\n' ∉ v.compact.toList := by
  rw [compact, String.toList_ofList]
  exact newline_notMem_chars v

end Json

/-- Records, each as compact JSON and a line break after it. -/
def jsonLines (records : List Json) : String :=
  String.join (records.map fun record => record.compact ++ "\n")

theorem lines_eq_jsonLines (records : List Json) : lines "" records = jsonLines records := by
  simp [lines, jsonLines]

theorem jsonLines_append (records records' : List Json) :
    jsonLines (records ++ records') = jsonLines records ++ jsonLines records' := by
  rw [jsonLines, jsonLines, jsonLines, List.map_append]
  exact String.join_append

theorem count_newline_jsonLines (records : List Json) :
    (jsonLines records).toList.count '\n' = records.length := by
  induction records with
  | nil => rfl
  | cons v records ih =>
    have hline : (jsonLines [v]).toList = v.compact.toList ++ ['\n'] := by simp [jsonLines]
    rw [← List.singleton_append, jsonLines_append, String.toList_append,
      List.count_append, ih, hline, List.count_append,
      List.count_eq_zero_of_not_mem v.newline_notMem_compact]
    simp [Nat.add_comm]

end DataPipeline
