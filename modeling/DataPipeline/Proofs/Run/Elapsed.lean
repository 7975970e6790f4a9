import DataPipeline.Proofs.Run.Interleaving
import DataPipeline.Run.World
import Mathlib.Algebra.Ring.Nat
import Mathlib.Data.List.Forall2

namespace DataPipeline

theorem World.now_perform (w : World) (op : Op) : (w.perform op).2.now = w.now := by
  cases op with
  | openFile | append =>
    rw [perform, World.append]
    split <;> rfl
  | offer | print | makeDirectories | note | count => rfl

namespace Activity

variable {α β : Type} {p : Activity α} {post post' : α → Nat → Prop}

/-- An activity ends, whatever it is answered, and its result and the time it takes satisfy a
condition. -/
def Ensures : Activity α → (α → Nat → Prop) → Prop
  | done a, post => post a 0
  | act _ next, post => ∀ answer, (next answer).Ensures post
  | sleep ms next, post => next.Ensures fun a elapsed => post a (ms + elapsed)
  | stall, _ => False

theorem Ensures.mono (h : p.Ensures post)
    (hpost : ∀ a elapsed, post a elapsed → post' a elapsed) :
    p.Ensures post' := by
  induction p generalizing post post' with
  | done a => exact hpost a 0 h
  | act op next ih => exact fun answer => ih answer (h answer) hpost
  | sleep ms next ih => exact ih h fun a elapsed => hpost a (ms + elapsed)
  | stall => exact h

theorem Ensures.bind {f : α → Activity β} {post : β → Nat → Prop}
    (h : p.Ensures fun a first => (f a).Ensures fun b second => post b (first + second)) :
    (p.bind f).Ensures post := by
  induction p generalizing post with
  | done a =>
    have hf : (f a).Ensures fun b second => post b (0 + second) := h
    simp only [Nat.zero_add] at hf
    exact hf
  | act op next ih => exact fun answer => ih answer (h answer)
  | sleep ms next ih =>
    have hnext : next.Ensures fun a first =>
        (f a).Ensures fun b second => post b (ms + first + second) :=
      h
    apply ih
    simpa only [Nat.add_assoc] using hnext
  | stall => exact h

theorem ensures_pause {ms : Nat} (h : p.Ensures fun a elapsed => post a (ms + elapsed)) :
    (pause ms p).Ensures post := by
  unfold pause
  split
  next hms =>
    subst hms
    simpa only [Nat.zero_add] using h
  · exact h

theorem ensures_cutAfter (p : Activity α) (limit : Nat) :
    (p.cutAfter limit).Ensures fun _ elapsed => elapsed ≤ limit := by
  induction p generalizing limit with
  | done a => exact Nat.zero_le limit
  | act op next ih => exact fun answer => ih answer limit
  | sleep ms next ih =>
    rw [cutAfter]
    split
    next hms =>
      apply (ih (limit - ms)).mono
      intro _ elapsed helapsed
      omega
    · exact Nat.le_refl limit
  | stall => exact Nat.le_refl limit

theorem Ensures.run (h : p.Ensures post) (w : World) :
    ∃ a w', p.run w = some (a, w') ∧ w.now ≤ w'.now ∧ post a (w'.now - w.now) := by
  induction p generalizing post w with
  | done a =>
    refine ⟨a, w, rfl, Nat.le_refl _, ?_⟩
    rwa [Nat.sub_self]
  | act op next ih =>
    have hnext := ih (w.perform op).1 (h _) (w.perform op).2
    rwa [World.now_perform] at hnext
  | sleep ms next ih =>
    obtain ⟨a, w', hrun, hle, hpost⟩ := ih h { w with now := w.now + ms }
    have hle : w.now + ms ≤ w'.now := hle
    refine ⟨a, w', hrun, by omega, ?_⟩
    have hsum : ms + (w'.now - (w.now + ms)) = w'.now - w.now := by omega
    exact hsum ▸ hpost
  | stall => exact h.elim

/-- A lane whose turn it is is the furthest behind of those that can go on. -/
theorem Turn.next?_earliest {lanes : List (Lane α)} {t : Turn lanes} (h : next? lanes = some t)
    {l : Lane α} (hl : l ∈ lanes) (hruns : l.runs = true) : t.lane.clock ≤ l.clock := by
  induction lanes with
  | nil => cases h
  | cons first rest ih =>
    rw [next?] at h
    split at h
    next hrest =>
      split at h
      · cases h
        rcases List.mem_cons.1 hl with rfl | hl
        · exact Nat.le_refl _
        · rw [runs_of_next?_none hrest l hl] at hruns
          cases hruns
      · cases h
    next t' ht =>
      have hrest (hl : l ∈ rest) : t'.lane.clock ≤ l.clock := ih ht hl
      split at h
      next hfirst =>
        cases h
        have hle : first.clock ≤ t'.lane.clock := by
          have hprecedes := (Bool.and_eq_true_iff.1 hfirst).2
          simp only [Lane.precedes, Bool.or_eq_true, decide_eq_true_eq,
            Bool.and_eq_true] at hprecedes
          omega
        rcases List.mem_cons.1 hl with rfl | hl
        · exact Nat.le_refl _
        · exact Nat.le_trans hle (hrest hl)
      next hfirst =>
        cases h
        rcases List.mem_cons.1 hl with rfl | hl
        · apply Nat.le_of_not_lt
          intro hlt
          exact hfirst (by simp [hruns, Lane.precedes, hlt])
        · exact hrest hl

/-- Lanes, and activities that wait for one, have shares of the time that follow each other from
a time on, and each ends by the end of its share if it starts by the beginning; all end by a
deadline. -/
inductive InLine : Nat → List (Lane α) → List (Activity α) → Nat → Prop where
  | nil {start deadline} (h : start ≤ deadline) : InLine start [] [] deadline
  | waiting {start share p ps deadline} (hp : p.Ensures fun _ elapsed => elapsed ≤ share)
      (h : InLine (start + share) [] ps deadline) : InLine start [] (p :: ps) deadline
  | lane {start share l lanes ps deadline}
      (hl : l.activity.Ensures fun _ elapsed => l.clock + elapsed ≤ start + share)
      (h : InLine (start + share) lanes ps deadline) : InLine start (l :: lanes) ps deadline

variable {start deadline : Nat} {lanes before after : List (Lane α)}
  {waiting ps : List (Activity α)}

theorem InLine.le (h : InLine start lanes waiting deadline) : start ≤ deadline := by
  induction h with
  | nil h => exact h
  | waiting _ _ ih => omega
  | lane _ _ ih => omega

theorem InLine.start_next {free : Nat} (h : InLine start lanes (p :: ps) deadline)
    (hfree : free ≤ start) : InLine start (lanes ++ [⟨free, none, p⟩]) ps deadline := by
  induction lanes generalizing start with
  | nil =>
    cases h with
    | waiting hp h =>
      apply InLine.lane _ h
      apply hp.mono
      intro _ elapsed helapsed
      exact Nat.add_le_add hfree helapsed
  | cons l lanes ih =>
    cases h with
    | lane hl h => exact .lane hl (ih h (by omega))

theorem InLine.replace {l l' : Lane α}
    (h : InLine start (before ++ l :: after) waiting deadline)
    (hl : ∀ d, (l.activity.Ensures fun _ elapsed => l.clock + elapsed ≤ d) →
      l'.activity.Ensures fun _ elapsed => l'.clock + elapsed ≤ d) :
    InLine start (before ++ l' :: after) waiting deadline := by
  induction before generalizing start with
  | nil =>
    cases h with
    | lane hshare h => exact .lane (hl _ hshare) h
  | cons first before ih =>
    cases h with
    | lane hshare h => exact .lane hshare (ih h)

/-- When the first of the lanes will have ended, as far as it has come. -/
def Lane.frontTime (free : Nat) : List (Lane α) → Nat
  | [] => free
  | l :: _ => max free l.clock

/-- Every lane that can go on is at the present or ahead of it, and the first one will have
ended by then unless it is stuck. -/
structure Lane.Ahead (now free : Nat) (lanes : List (Lane α)) : Prop where
  running : ∀ l ∈ lanes, l.runs = true → now ≤ l.clock
  front : (∀ l ∈ lanes.head?, l.activity ≠ .stall) → now ≤ frontTime free lanes

theorem Lane.Ahead.le_ended {now free clock : Nat} {place? : Option Nat} {a : α}
    (h : Ahead now free (⟨clock, place?, .done a⟩ :: lanes)) : now ≤ max free clock := by
  apply h.front
  rintro l ⟨rfl⟩
  nofun

theorem Lane.Ahead.ended {now free clock : Nat} {place? : Option Nat} {a : α}
    (h : Ahead now free (⟨clock, place?, .done a⟩ :: lanes)) :
    Ahead now (max free clock) lanes where
  running l' hl' := h.running l' (List.mem_cons_of_mem _ hl')
  front _ := by
    cases lanes with
    | nil => exact h.le_ended
    | cons l' lanes => exact Nat.le_trans h.le_ended (Nat.le_max_left _ _)

theorem Lane.Ahead.started {now free : Nat} (h : Ahead now free lanes) (hfree : now ≤ free) :
    Ahead now free (lanes ++ [⟨free, none, p⟩]) where
  running l hl hruns := by
    rcases List.mem_append.1 hl with hl | hl
    · exact h.running l hl hruns
    · cases List.mem_singleton.1 hl
      exact hfree
  front hstall := by
    cases lanes with
    | nil => exact Nat.le_trans hfree (Nat.le_max_left _ _)
    | cons l lanes => exact h.front hstall

theorem Lane.runs_of_ne_stall {l : Lane α} (hl : ∀ clock place? a, l ≠ ⟨clock, place?, done a⟩)
    (h : l.activity ≠ .stall) : l.runs = true := by
  obtain ⟨clock, place?, p⟩ := l
  cases p with
  | done a => exact absurd rfl (hl clock place? a)
  | act op next => rfl
  | sleep ms next => rfl
  | stall => exact absurd rfl h

theorem Lane.Ahead.replaced {now free : Nat} {l l' : Lane α} (hl : l.runs = true)
    (hold : ∀ x ∈ before ++ l :: after, x.runs = true → now ≤ x.clock)
    (hfirst : ∀ x ∈ (before ++ l :: after).head?, ∀ clock place? a, x ≠ ⟨clock, place?, done a⟩)
    (hle : l.clock ≤ l'.clock) : Ahead now free (before ++ l' :: after) where
  running x hx hruns := by
    rcases List.mem_append.1 hx with hx | hx
    · exact hold x (List.mem_append_left _ hx) hruns
    rcases List.mem_cons.1 hx with rfl | hx
    · exact Nat.le_trans (hold l (by simp) hl) hle
    · exact hold x (by simp [hx]) hruns
  front hstall := by
    cases before with
    | nil => exact Nat.le_trans (Nat.le_trans (hold l (by simp) hl) hle) (Nat.le_max_right _ _)
    | cons first before =>
      have hruns := runs_of_ne_stall (hfirst first rfl) (hstall first rfl)
      exact Nat.le_trans (hold first (by simp) hruns) (Nat.le_max_right _ _)

theorem Lane.Ahead.mono {now now' free : Nat} (h : Ahead now' free lanes) (hle : now ≤ now') :
    Ahead now free lanes where
  running l hl hruns := Nat.le_trans hle (h.running l hl hruns)
  front hstall := Nat.le_trans hle (h.front hstall)

theorem Lane.Ahead.present {now free : Nat} {l : Lane α} (h : Ahead now free lanes)
    (hturn : HasTurn lanes before l after) : now ≤ l.clock := by
  apply h.running l _ (Turn.next?_runs hturn.next)
  rw [hturn.lanes_eq]
  exact List.mem_append_right _ List.mem_cons_self

theorem Lane.HasTurn.ahead {free : Nat} {l l' : Lane α} (h : HasTurn lanes before l after)
    (hle : l.clock ≤ l'.clock) : Ahead l.clock free (before ++ l' :: after) := by
  have hearliest : ∀ x ∈ lanes, x.runs = true → l.clock ≤ x.clock :=
    fun x hx hruns => Turn.next?_earliest h.next hx hruns
  have hfirst : ∀ x ∈ lanes.head?, ∀ clock place? a, x ≠ ⟨clock, place?, done a⟩ :=
    fun x hx => ne_done (h.unended x hx)
  rw [h.lanes_eq] at hearliest hfirst
  exact .replaced (Turn.next?_runs h.next) hearliest hfirst hle

/-- Lanes in line have all ended by the deadline. -/
theorem Advances.ensures {queued? : Option Nat} {now free : Nat} {results : List α}
    {q : Activity (List α)} (hadvances : Advances queued? now free results lanes waiting q)
    (h : InLine start lanes waiting deadline) (hfree : free ≤ start)
    (hahead : Lane.Ahead now free lanes) :
    q.Ensures fun _ elapsed => now + elapsed ≤ deadline := by
  induction hadvances generalizing start with
  | finish queued? now free results =>
    apply ensures_pause
    have hle := h.le
    have hfront : now ≤ free := hahead.front (by simp)
    change now + (free - now + 0) ≤ deadline
    omega
  | @ended queued? now free results clock place? a rest q _ ih =>
    cases h with
    | lane hl h =>
      have hclock : clock + 0 ≤ _ := hl
      exact ih h (by omega) hahead.ended
  | @start queued? now free results clock place? a rest p waiting q _ ih =>
    cases h with
    | lane hl h =>
      have hclock : clock + 0 ≤ _ := hl
      have hstart : max free clock ≤ _ := Nat.max_le.2 ⟨Nat.le_add_right_of_le hfree, hclock⟩
      exact ih (h.start_next hstart) hstart (hahead.ended.started hahead.le_ended)
  | @sleep queued? now free results lanes before clock place? ms next after waiting
      q hturn _ ih =>
    rw [hturn.lanes_eq] at h
    apply ih (h.replace _) hfree
      ((hturn.ahead (Nat.le_add_right _ _)).mono (hahead.present hturn))
    intro d hd
    have hd : next.Ensures fun _ elapsed => clock + (ms + elapsed) ≤ d := hd
    simpa only [Nat.add_assoc] using hd
  | @act queued? now free results lanes before clock place? after waiting op
      next q hturn _ ih =>
    have hpresent : now ≤ clock := hahead.present hturn
    rw [hturn.lanes_eq] at h
    apply ensures_pause
    intro answer
    have hnext : (q answer).Ensures fun _ elapsed => clock + elapsed ≤ deadline :=
      ih answer (h.replace fun _ hd => hd answer) hfree (hturn.ahead (Nat.le_refl _))
    apply hnext.mono
    intro _ elapsed helapsed
    omega
  | stuck hturn =>
    cases h with
    | lane hl h => exact hl.elim

theorem inLine_together {bound : Nat}
    (h : ∀ p ∈ ps, p.Ensures fun _ elapsed => elapsed ≤ bound) :
    InLine bound (ps.map fun p => ⟨0, none, p⟩) [] bound := by
  induction ps with
  | nil => exact .nil (Nat.le_refl bound)
  | cons p ps ih =>
    rw [List.forall_mem_cons] at h
    have hp : p.Ensures fun _ elapsed => 0 + elapsed ≤ bound + 0 := by
      simpa only [Nat.zero_add, Nat.add_zero] using h.1
    exact .lane hp (ih h.2)

theorem inLine_shares {bounds : List Nat}
    (h : List.Forall₂
      (fun (p : Activity α) bound => p.Ensures fun _ elapsed => elapsed ≤ bound) ps bounds)
    (started start : Nat) :
    InLine start ((ps.take started).map fun p => ⟨0, none, p⟩) (ps.drop started)
      (start + bounds.sum) := by
  induction h generalizing started start with
  | nil => simpa using .nil (Nat.le_refl start)
  | @cons p bound ps bounds hp h ih =>
    rw [List.sum_cons, ← Nat.add_assoc]
    cases started with
    | zero => exact .waiting hp (by simpa using ih 0 (start + bound))
    | succ started =>
      apply InLine.lane
      · apply hp.mono
        intro _ elapsed helapsed
        rw [Nat.zero_add]
        exact Nat.le_add_left_of_le helapsed
      · exact ih started (start + bound)

theorem Lane.ahead_start : Lane.Ahead 0 0 (ps.map fun p => Lane.mk 0 none p) where
  running _ _ _ := Nat.zero_le _
  front _ := Nat.zero_le _

theorem ensures_fanOut_together {bound : Nat}
    (h : ∀ p ∈ ps, p.Ensures fun _ elapsed => elapsed ≤ bound) :
    (fanOut none ps).Ensures fun _ elapsed => elapsed ≤ bound := by
  have hline := inLine_together h
  rw [← List.take_length (l := ps), ← List.drop_length (l := ps)] at hline
  have hlimit : (none : Option Nat) ≠ some 0 := nofun
  obtain ⟨_, hadvances⟩ := advances_fanOut ps hlimit
  have hall := hadvances.ensures hline (Nat.zero_le bound) Lane.ahead_start
  simpa only [Nat.zero_add] using hall

theorem ensures_fanOut_limited {bounds : List Nat} {limit : Option Nat}
    (hlimit : limit ≠ some 0)
    (h : List.Forall₂ (fun (p : Activity α) bound => p.Ensures fun _ elapsed => elapsed ≤ bound)
      ps bounds) :
    (fanOut limit ps).Ensures fun _ elapsed => elapsed ≤ bounds.sum := by
  obtain ⟨_, hadvances⟩ := advances_fanOut ps hlimit
  have hall := hadvances.ensures (inLine_shares h (limit.getD ps.length) 0) (Nat.le_refl 0)
    Lane.ahead_start
  simpa only [Nat.zero_add] using hall

end Activity

end DataPipeline
