import DataPipeline.Run.FanOut

namespace DataPipeline

namespace Activity

variable {α : Type}

/-- An activity takes the steps of others in some order and collects their results; those of the
activities that have ended are given, the last one first. -/
inductive Interleaves : List α → List (Activity α) → Activity (List α) → Prop where
  | ended (results : List α) : Interleaves results [] (.done results.reverse)
  | first {results ps q} (a : α) (h : Interleaves (a :: results) ps q) :
      Interleaves results (.done a :: ps) q
  | sleep {results before after p q} (ms : Nat)
      (h : Interleaves results (before ++ p :: after) q) :
      Interleaves results (before ++ .sleep ms p :: after) q
  | act {results before after op} {next : op.Answer → Activity α}
      {q : op.Answer → Activity (List α)}
      (h : ∀ answer, Interleaves results (before ++ next answer :: after) (q answer)) :
      Interleaves results (before ++ .act op next :: after) (.act op q)
  | wait {results ps q} (ms : Nat) (h : Interleaves results ps q) :
      Interleaves results ps (.sleep ms q)
  | stall {results ps} (h : .stall ∈ ps) : Interleaves results ps .stall

theorem Interleaves.pause {results : List α} {ps : List (Activity α)} {q : Activity (List α)}
    {ms : Nat} (h : Interleaves results ps q) : Interleaves results ps (pause ms q) := by
  unfold Activity.pause
  split
  · exact h
  · exact .wait ms h

theorem Turn.next?_runs {lanes : List (Lane α)} {t : Turn lanes}
    (h : Turn.next? lanes = some t) :
    t.lane.runs = true := by
  induction lanes with
  | nil => cases h
  | cons l rest ih =>
    rw [Turn.next?] at h
    split at h
    · split at h
      · cases h
        assumption
      · cases h
    next t' ht =>
      split at h
      next hl =>
        cases h
        exact (Bool.and_eq_true_iff.1 hl).1
      · cases h
        exact ih ht

theorem Turn.runs_of_next?_none {lanes : List (Lane α)} (h : Turn.next? lanes = none) :
    ∀ l ∈ lanes, l.runs = false := by
  induction lanes with
  | nil => nofun
  | cons l rest ih =>
    rw [Turn.next?] at h
    split at h
    next hrest =>
      split at h
      · cases h
      next hl =>
        intro l' hmem
        rcases List.mem_cons.1 hmem with rfl | hmem
        · exact Bool.eq_false_iff.2 hl
        · exact ih hrest l' hmem
    · split at h <;> cases h

theorem Turn.next?_eq_none {lanes : List (Lane α)}
    (hsleep : ∀ before clock place? ms next after hsplit,
      next? lanes ≠ some ⟨before, ⟨clock, place?, .sleep ms next⟩, after, hsplit⟩)
    (hact : ∀ before clock place? op next after hsplit,
      next? lanes ≠ some ⟨before, ⟨clock, place?, .act op next⟩, after, hsplit⟩) :
    next? lanes = none := by
  cases hturn : next? lanes with
  | none => rfl
  | some t =>
    have hruns := next?_runs hturn
    obtain ⟨before, ⟨clock, place?, p⟩, after, hsplit⟩ := t
    cases p with
    | done a => cases hruns
    | act op next => exact absurd hturn (hact before clock place? op next after hsplit)
    | sleep ms next => exact absurd hturn (hsleep before clock place? ms next after hsplit)
    | stall => cases hruns

theorem Lane.activities_split {l : Lane α} {before after : List (Lane α)}
    {waiting : List (Activity α)} : activities (before ++ l :: after) waiting =
      before.map (·.activity) ++ l.activity :: (after.map (·.activity) ++ waiting) := by
  simp [activities]

/-- A lane whose activity has come to its end. -/
def Lane.ended (l : Lane α) : Bool :=
  match l.activity with
  | .done _ => true
  | .act .. | .sleep .. | .stall => false

theorem Lane.ne_done {l : Lane α} (h : l.ended = false) (clock : Nat)
    (place? : Option Nat) (a : α) :
    l ≠ ⟨clock, place?, .done a⟩ := by
  rintro rfl
  cases h

/-- Among lanes of which the first has not ended, it is the turn of one between others. -/
structure Lane.HasTurn (lanes before : List (Lane α)) (l : Lane α)
    (after : List (Lane α)) : Prop where
  lanes_eq : lanes = before ++ l :: after
  next : Turn.next? lanes = some ⟨before, l, after, lanes_eq⟩
  unended : ∀ first ∈ lanes.head?, first.ended = false

/-- The place of a lane that sleeps for a time, and that of the next one. -/
def requeue (ms : Nat) (place? queued? : Option Nat) : Option Nat × Option Nat :=
  if ms = 0 then (place?, queued?) else (queued?, queued?.map (· + 1))

section Turns

variable {queued? place? : Option Nat} {now free clock : Nat} {results : List α}
  {lanes before after : List (Lane α)} {waiting : List (Activity α)}

theorem advance_sleep {ms : Nat} {next : Activity α}
    (h : Lane.HasTurn lanes before ⟨clock, place?, .sleep ms next⟩ after) :
    advance queued? now free results lanes waiting =
      advance (requeue ms place? queued?).2 now free results
        (before ++ ⟨clock + ms, (requeue ms place? queued?).1, next⟩ :: after) waiting := by
  obtain ⟨hsplit, hturn, hfirst⟩ := h
  cases lanes with
  | nil => cases hturn
  | cons l rest =>
    rw [advance, hturn]
    · rfl
    · exact Lane.ne_done (hfirst l rfl)

theorem advance_act {op : Op} {next : op.Answer → Activity α}
    (h : Lane.HasTurn lanes before ⟨clock, place?, .act op next⟩ after) :
    advance queued? now free results lanes waiting =
      Activity.pause (clock - now) (.act op fun answer =>
        advance queued? clock free results (before ++ ⟨clock, place?, next answer⟩ :: after)
          waiting) := by
  obtain ⟨hsplit, hturn, hfirst⟩ := h
  cases lanes with
  | nil => cases hturn
  | cons l rest =>
    rw [advance, hturn]
    exact Lane.ne_done (hfirst l rfl)

theorem advance_stall {rest : List (Lane α)}
    (h : Turn.next? (⟨clock, place?, .stall⟩ :: rest) = none) :
    advance queued? now free results (⟨clock, place?, .stall⟩ :: rest) waiting = .stall := by
  rw [advance, h]
  exact Lane.ne_done rfl

end Turns

/-- How an activity comes about from lanes and from activities that wait for one, turn by
turn. -/
inductive Advances : Option Nat → Nat → Nat → List α → List (Lane α) → List (Activity α) →
    Activity (List α) → Prop where
  | finish (queued? now free results) :
      Advances queued? now free results [] [] (.pause (free - now) (.done results.reverse))
  | ended {queued? now free results clock place? a rest q}
      (h : Advances queued? now (max free clock) (a :: results) rest [] q) :
      Advances queued? now free results (⟨clock, place?, .done a⟩ :: rest) [] q
  | start {queued? now free results clock place? a rest p waiting q}
      (h : Advances queued? now (max free clock) (a :: results)
        (rest ++ [⟨max free clock, none, p⟩]) waiting q) :
      Advances queued? now free results (⟨clock, place?, .done a⟩ :: rest) (p :: waiting) q
  | sleep {queued? now free results lanes before clock place? ms next after waiting q}
      (hturn : Lane.HasTurn lanes before ⟨clock, place?, .sleep ms next⟩ after)
      (h : Advances (requeue ms place? queued?).2 now free results
        (before ++ ⟨clock + ms, (requeue ms place? queued?).1, next⟩ :: after) waiting q) :
      Advances queued? now free results lanes waiting q
  | act {queued? now free results lanes before clock place? after waiting} {op : Op}
      {next : op.Answer → Activity α} {q : op.Answer → Activity (List α)}
      (hturn : Lane.HasTurn lanes before ⟨clock, place?, .act op next⟩ after)
      (h : ∀ answer, Advances queued? clock free results
        (before ++ ⟨clock, place?, next answer⟩ :: after) waiting (q answer)) :
      Advances queued? now free results lanes waiting (.pause (clock - now) (.act op q))
  | stuck {queued? now free results clock place? rest waiting}
      (hturn : Turn.next? (⟨clock, place?, .stall⟩ :: rest) = none) :
      Advances queued? now free results (⟨clock, place?, .stall⟩ :: rest) waiting .stall

/-- Lanes advance so, unless activities wait behind none. -/
theorem advances_advance {queued? : Option Nat} {now free : Nat} {results : List α}
    {lanes : List (Lane α)} {waiting : List (Activity α)} (hlanes : lanes = [] → waiting = []) :
    Advances queued? now free results lanes waiting
      (advance queued? now free results lanes waiting) := by
  have hunended {l : Lane α} {rest : List (Lane α)}
      (hl : ∀ clock place? a, l ≠ ⟨clock, place?, .done a⟩) :
      ∀ first ∈ (l :: rest).head?, first.ended = false := by
    rintro first ⟨rfl⟩
    obtain ⟨clock, place?, p⟩ := l
    cases p with
    | done a => exact absurd rfl (hl clock place? a)
    | act | sleep | stall => rfl
  induction queued?, now, free, results, lanes, waiting using advance.induct with
  | case1 queued? now free results waiting hempty =>
    rw [hlanes rfl, advance]
    exact .finish ..
  | case2 queued? now free results waiting hempty => simp [hlanes rfl] at hempty
  | case3 queued? now free results clock place? a rest ih =>
    rw [advance]
    exact .ended (ih fun _ => rfl)
  | case4 queued? now free results clock place? a rest p ps free' ih =>
    rw [advance]
    exact .start (ih (by simp))
  | case5 queued? now free results waiting l rest hl before clock place? ms
      next after hsplit hturn place' queued' hplace ih =>
    have hturn : Lane.HasTurn (l :: rest) before ⟨clock, place?, .sleep ms next⟩ after :=
      ⟨hsplit, hturn, hunended hl⟩
    have hplace : requeue ms place? queued? = (place', queued') := hplace
    rw [advance_sleep hturn]
    apply Advances.sleep hturn
    rw [hplace]
    exact ih (by simp)
  | case6 queued? now free results waiting l rest hl before clock place? op
      next after hsplit hturn ih =>
    have hturn : Lane.HasTurn (l :: rest) before ⟨clock, place?, .act op next⟩ after :=
      ⟨hsplit, hturn, hunended hl⟩
    rw [advance_act hturn]
    exact .act hturn fun answer => ih answer (by simp)
  | case7 queued? now free results waiting l rest hl hsleep hact =>
    have hturn := Turn.next?_eq_none hsleep hact
    have hruns := Turn.runs_of_next?_none hturn l List.mem_cons_self
    obtain ⟨clock, place?, p⟩ := l
    cases p with
    | done a => exact absurd rfl (hl clock place? a)
    | act | sleep => cases hruns
    | stall =>
      rw [advance_stall hturn]
      exact .stuck hturn

theorem drop_started {limit : Option Nat} {ps : List (Activity α)} (h : limit ≠ some 0)
    (hnil : ((ps.take (limit.getD ps.length)).map fun p => Lane.mk 0 none p) = []) :
    ps.drop (limit.getD ps.length) = [] := by
  cases limit with
  | none => simp
  | some n =>
    cases n with
    | zero => exact absurd rfl h
    | succ n =>
      have hempty : ps = [] := by simpa using hnil
      simp [hempty]

theorem advances_fanOut {limit : Option Nat} (ps : List (Activity α)) (h : limit ≠ some 0) :
    ∃ queued?, Advances queued? 0 0 [] ((ps.take (limit.getD ps.length)).map (⟨0, none, ·⟩))
      (ps.drop (limit.getD ps.length)) (fanOut limit ps) :=
  ⟨_, advances_advance (drop_started h)⟩

section

variable {queued? : Option Nat} {now free : Nat} {results : List α} {lanes : List (Lane α)}
  {waiting : List (Activity α)} {q : Activity (List α)}

/-- Lanes interleave with the activities that wait for one. -/
theorem Advances.interleaves (h : Advances queued? now free results lanes waiting q) :
    Interleaves results (Lane.activities lanes waiting) q := by
  induction h with
  | finish => exact .pause (.ended _)
  | ended h ih => exact .first _ ih
  | start h ih =>
    rw [Lane.activities_split, List.map_nil, List.nil_append] at ih
    exact .first _ ih
  | sleep hturn h ih =>
    rw [Lane.activities_split] at ih
    rw [hturn.lanes_eq, Lane.activities_split]
    exact .sleep _ ih
  | act hturn h ih =>
    rw [hturn.lanes_eq, Lane.activities_split]
    apply Interleaves.pause
    apply Interleaves.act
    intro answer
    have hnext := ih answer
    rwa [Lane.activities_split] at hnext
  | stuck hturn => exact .stall List.mem_cons_self

end

theorem interleaves_fanOut {limit : Option Nat} {ps : List (Activity α)} (h : limit ≠ some 0) :
    Interleaves [] ps (fanOut limit ps) := by
  have hps : Lane.activities ((ps.take (limit.getD ps.length)).map fun p => ⟨0, none, p⟩)
      (ps.drop (limit.getD ps.length)) = ps := by
    simp [Lane.activities, Function.comp_def]
  obtain ⟨_, hadvances⟩ := advances_fanOut ps h
  have hfan := hadvances.interleaves
  rwa [hps] at hfan

end Activity

end DataPipeline
