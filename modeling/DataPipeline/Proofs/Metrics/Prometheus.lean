import DataPipeline.Metrics.Prometheus
import Mathlib.Data.List.Basic

namespace DataPipeline

theorem append_mark_inj {c : Char} {a a' b b' : List Char} (ha : c ∉ a) (ha' : c ∉ a')
    (h : a ++ c :: b = a' ++ c :: b') : a = a' ∧ b = b' := by
  rcases List.append_eq_append_iff.1 h with ⟨l, rfl, hcut⟩ | ⟨l, rfl, hcut⟩
  · cases l with
    | nil => exact ⟨(List.append_nil a).symm, (List.cons.inj hcut).2⟩
    | cons x l =>
      obtain ⟨rfl, _⟩ := List.cons.inj hcut
      exact absurd (List.mem_append_right _ List.mem_cons_self) ha'
  · cases l with
    | nil => exact ⟨List.append_nil a', (List.cons.inj hcut).2.symm⟩
    | cons x l =>
      obtain ⟨rfl, _⟩ := List.cons.inj hcut
      exact absurd (List.mem_append_right _ List.mem_cons_self) ha

theorem toString_nat_inj {n n' : Nat} (h : toString n = toString n') : n = n' := by
  have hdigits := congrArg String.toList h
  rw [Nat.toString_eq_repr, Nat.toString_eq_repr, Nat.toList_repr, Nat.toList_repr] at hdigits
  rw [← Nat.ofDigitChars_ten_toDigits (n := n), hdigits, Nat.ofDigitChars_ten_toDigits]

namespace Decimal

theorem newline_notMem_toString (n : Nat) : '\n' ∉ (toString n).toList := by
  rw [Nat.toString_eq_repr, Nat.toList_repr]
  intro h
  have hdigit : '\n'.isDigit = true := Nat.isDigit_of_mem_toDigits (by decide) (by decide) h
  revert hdigit
  decide

theorem newline_notMem_placesChars (units places : Nat) : '\n' ∉ placesChars units places := by
  unfold placesChars
  dsimp only
  split
  · exact newline_notMem_toString _
  · simp only [List.mem_append, newline_notMem_toString, List.mem_replicate]
    simp

theorem newline_notMem_fixedChars (places : Nat) (x : Float) : '\n' ∉ fixedChars places x := by
  unfold fixedChars
  split
  · split
    · decide
    · split <;> decide
  · simp only [List.mem_append, newline_notMem_placesChars, or_false]
    split <;> decide

end Decimal

namespace Metrics

variable {s : Series} {p p' : String} {m m' : StageMetrics} {x y : List Char}

theorem toList_line :
    (line s p m).toList = s.name.toList ++ ("\x7bpath=\"".toList ++ (p.toList ++ '"' ::
      (",stage=\"".toList ++ (m.stage.toList ++ '"' ::
        ("\x7d ".toList ++ ((s.value m).toList ++ ['\n'])))))) := by
  simp [line, labels, String.toList_append]

theorem line_inj (hp : '"' ∉ p.toList) (hp' : '"' ∉ p'.toList) (hm : '"' ∉ m.stage.toList)
    (hm' : '"' ∉ m'.stage.toList) (hv : '\n' ∉ (s.value m).toList)
    (hv' : '\n' ∉ (s.value m').toList)
    (h : (line s p m).toList ++ x = (line s p' m').toList ++ y) :
    p = p' ∧ m.stage = m'.stage ∧ s.value m = s.value m' ∧ x = y := by
  simp only [toList_line, List.append_assoc, List.cons_append, List.nil_append] at h
  obtain ⟨hpath, h⟩ :=
    append_mark_inj hp hp' (List.append_cancel_left (List.append_cancel_left h))
  obtain ⟨hstage, h⟩ := append_mark_inj hm hm' (List.append_cancel_left h)
  obtain ⟨hvalue, hrest⟩ := append_mark_inj hv hv' (List.append_cancel_left h)
  exact ⟨String.ext hpath, String.ext hstage, String.ext hvalue, hrest⟩

theorem newline_notMem_value (hs : s ∈ series) (m : StageMetrics) :
    '\n' ∉ (s.value m).toList := by
  simp only [series, List.mem_cons, List.not_mem_nil, or_false] at hs
  rcases hs with rfl | rfl | rfl | rfl | rfl | rfl | rfl
  case inr.inr.inr.inr.inr.inl | inr.inr.inr.inr.inr.inr =>
    dsimp only
    rw [secondsText, String.toList_ofList]
    exact Decimal.newline_notMem_fixedChars _ _
  all_goals exact Decimal.newline_notMem_toString _

/-- The lines of some series for one place. -/
def lines (ss : List Series) (p : String) (m : StageMetrics) : List Char :=
  ss.flatMap fun s => (line s p m).toList

theorem lines_inj {ss : List Series} (hss : ∀ s ∈ ss, s ∈ series) (hp : '"' ∉ p.toList)
    (hp' : '"' ∉ p'.toList) (hm : '"' ∉ m.stage.toList) (hm' : '"' ∉ m'.stage.toList)
    (h : lines ss p m ++ x = lines ss p' m' ++ y) :
    x = y ∧ ∀ s ∈ ss, p = p' ∧ m.stage = m'.stage ∧ s.value m = s.value m' := by
  induction ss with
  | nil => exact ⟨h, nofun⟩
  | cons s ss ih =>
    obtain ⟨hs, hss⟩ := List.forall_mem_cons.1 hss
    simp only [lines, List.flatMap_cons, List.append_assoc] at h
    obtain ⟨hpath, hstage, hvalue, h⟩ :=
      line_inj hp hp' hm hm' (newline_notMem_value hs m) (newline_notMem_value hs m') h
    obtain ⟨hxy, hrest⟩ := ih hss h
    exact ⟨hxy, List.forall_mem_cons.2 ⟨⟨hpath, hstage, hvalue⟩, hrest⟩⟩

theorem fields_eq_of_values (hstage : m.stage = m'.stage)
    (h : ∀ s ∈ series, s.value m = s.value m') :
    m.fields = m'.fields := by
  simp only [series, List.forall_mem_cons] at h
  obtain ⟨hcalls, hfailures, hvalidation, hbatches, hrecords, _⟩ := h
  rw [StageMetrics.fields, StageMetrics.fields, hstage, toString_nat_inj hcalls,
    toString_nat_inj hfailures, toString_nat_inj hvalidation, toString_nat_inj hbatches,
    toString_nat_inj hrecords]

/-- What is counted for each path, durations left out. -/
def tallies (stages : List (String × StageMetrics)) : List (String × Fields) :=
  stages.map fun s => (s.1, s.2.fields)

/-- No quote occurs in a path or in the name of a stage. -/
def Unquoted (stages : List (String × StageMetrics)) : Prop :=
  ∀ s ∈ stages, '"' ∉ s.1.toList ∧ '"' ∉ s.2.stage.toList

/-- The lines of all series for some places. -/
def blocks (stages : List (String × StageMetrics)) : List Char :=
  stages.flatMap fun s => lines series s.1 s.2

theorem head?_blocks_append (s : String × StageMetrics)
    (stages : List (String × StageMetrics)) :
    (blocks (s :: stages) ++ x).head? = some 'd' := by
  have hname : "datajet_stage_calls_total".toList.head? = some 'd' := by decide
  rw [blocks, List.flatMap_cons, lines, series, List.flatMap_cons, toList_line]
  simp only [List.append_assoc, List.head?_append, hname, Option.some_or]

/-- The lines up to a comment determine what is counted for each path. -/
theorem blocks_inj {stages stages' : List (String × StageMetrics)} (hq : Unquoted stages)
    (hq' : Unquoted stages') (hx : x.head? = some '#') (hy : y.head? = some '#')
    (h : blocks stages ++ x = blocks stages' ++ y) : tallies stages = tallies stages' := by
  induction stages generalizing stages' with
  | nil =>
    cases stages' with
    | nil => rfl
    | cons s' stages' =>
      have hhead := congrArg List.head? h
      rw [head?_blocks_append, blocks, List.flatMap_nil, List.nil_append, hx] at hhead
      exact absurd hhead (by decide)
  | cons s stages ih =>
    cases stages' with
    | nil =>
      have hhead := congrArg List.head? h
      rw [head?_blocks_append, blocks, List.flatMap_nil, List.nil_append, hy] at hhead
      exact absurd hhead (by decide)
    | cons s' stages' =>
      obtain ⟨⟨hp, hm⟩, hq⟩ := List.forall_mem_cons.1 hq
      obtain ⟨⟨hp', hm'⟩, hq'⟩ := List.forall_mem_cons.1 hq'
      simp only [blocks, List.flatMap_cons, List.append_assoc] at h
      obtain ⟨h, hvalues⟩ := lines_inj (fun _ hs => hs) hp hp' hm hm' h
      obtain ⟨hpath, hstage, _⟩ := hvalues _ List.mem_cons_self
      rw [tallies, List.map_cons, hpath,
        fields_eq_of_values hstage fun s hs => (hvalues s hs).2.2]
      exact congrArg _ (ih hq hq' h)

/-- The text about the whole run. -/
def closing (m : Metrics) : String :=
  header totalName "Total pipeline duration" "gauge" ++ totalName ++ " " ++
    secondsText m.totalDurationMs ++ "\n"

theorem head?_closing (m : Metrics) : m.closing.toList.head? = some '#' := by
  simp [closing, header]

theorem toList_toPrometheus (m : Metrics) : m.toPrometheus.toList =
    (String.join (series.map fun s => header s.name s.help s.type)).toList ++
      (blocks m.stages ++ m.closing.toList) := by
  simp [toPrometheus, blocks, lines, closing, String.toList_join, List.flatMap_assoc,
    List.flatMap_map]

/-- The text identifies every series if no quote occurs in a path or a name: whatever else
differs between two runs than durations, the path of a stage, its name, or one of its counters,
differs between their texts. -/
theorem toPrometheus_ne (m m' : Metrics) (h : Unquoted m.stages) (h' : Unquoted m'.stages)
    (hne : tallies m.stages ≠ tallies m'.stages) : m.toPrometheus ≠ m'.toPrometheus := by
  intro heq
  have hlist := congrArg String.toList heq
  rw [toList_toPrometheus, toList_toPrometheus] at hlist
  exact hne (blocks_inj h h' m.head?_closing m'.head?_closing (List.append_cancel_left hlist))

/-- A run that has counted some records at one path. -/
def recorded (path stage : String) (records : Nat) : Metrics :=
  ⟨[(path, { stage, records })], 0⟩

theorem toPrometheus_ne_records :
    (recorded "$" "static->discard" 2).toPrometheus ≠
      (recorded "$" "static->discard" 5).toPrometheus := by
  apply toPrometheus_ne
  · simp [Unquoted, recorded]
  · simp [Unquoted, recorded]
  · simp [tallies, recorded, StageMetrics.fields]

/-- No time has passed. -/
def Untimed (m : Metrics) : Prop :=
  m.totalDurationMs = 0 ∧ ∀ s ∈ m.stages, s.2.totalDurationMs = 0 ∧ s.2.maxDurationMs = 0

theorem untimed_recorded (path stage : String) (records : Nat) :
    Untimed (recorded path stage records) := by
  refine ⟨rfl, fun s hs => ?_⟩
  cases List.mem_singleton.1 hs
  exact ⟨rfl, rfl⟩

/-- Quotes make a part of a path look like the name of a stage. -/
theorem not_forall_toPrometheus_ne : ¬∀ m m' : Metrics, Untimed m → Untimed m' →
    tallies m.stages ≠ tallies m'.stages → m.toPrometheus ≠ m'.toPrometheus := by
  intro hall
  have hlabels : labels "a" { stage := "b\",stage=\"c", records := 1 } =
      labels "a\",stage=\"b" { stage := "c", records := 1 } := by
    decide +kernel
  apply hall (recorded "a" "b\",stage=\"c" 1) (recorded "a\",stage=\"b" "c" 1)
    (untimed_recorded _ _ _) (untimed_recorded _ _ _)
  · simp [tallies, recorded]
  · simp only [toPrometheus, recorded, List.flatMap_cons, List.flatMap_nil, line, hlabels]
    rfl

end Metrics

end DataPipeline
