import DataPipeline.Proofs.Run.History
import DataPipeline.Proofs.Run.Shuffle

namespace DataPipeline

namespace Activity

section

variable {α β : Type}

/-- An activity that starts at a time does some actions, whatever it is answered, and at another
time it ends with a result or stalls without one. -/
inductive Passes : Activity α → Nat → Option α → List Event → Nat → Prop where
  | done (a : α) (t : Nat) : Passes (.done a) t (some a) [] t
  | act {op : Op} {next : op.Answer → Activity α} {t r es t'} (answer : op.Answer)
      (h : Passes (next answer) t r es t') :
      Passes (.act op next) t r (⟨t, op, answer⟩ :: es) t'
  | sleep {ms next t r es t'} (h : Passes next (t + ms) r es t') :
      Passes (.sleep ms next) t r es t'
  | stall (t : Nat) : Passes .stall t none [] t

/-- The course of one activity: none is its result if it stalls. -/
structure Passage (α : Type) where
  start : Nat
  result : Option α
  events : List Event
  finish : Nat

/-- An activity can take this course. -/
def Passage.Of (x : Passage α) (p : Activity α) : Prop :=
  p.Passes x.start x.result x.events x.finish

variable {p : Activity α} {t t' : Nat} {r : Option α} {es : List Event}

theorem passes_history (p : Activity α) (w : World) :
    ∃ t', p.Passes w.now ((p.run w).map (·.1)) (p.history w) t' ∧
      ∀ e ∈ p.run w, t' = e.2.now := by
  induction p generalizing w with
  | done a =>
    refine ⟨w.now, .done a _, ?_⟩
    rintro e ⟨rfl⟩
    rfl
  | act op next ih =>
    obtain ⟨t', h, hfinish⟩ := ih (w.perform op).1 (w.perform op).2
    rw [World.now_perform] at h
    exact ⟨t', .act _ h, hfinish⟩
  | sleep ms next ih =>
    obtain ⟨t', h, hfinish⟩ := ih { w with now := w.now + ms }
    exact ⟨t', .sleep h, hfinish⟩
  | stall => exact ⟨w.now, .stall _, nofun⟩

theorem passes_of_run {a : α} {w w' : World} (h : p.run w = some (a, w')) :
    p.Passes w.now (some a) (p.history w) w'.now := by
  obtain ⟨t', hpasses, hfinish⟩ := passes_history p w
  rw [h] at hpasses hfinish
  rw [← hfinish _ rfl]
  exact hpasses

/-- An activity in two parts either passes both, or stalls in the first. -/
theorem passes_bind {f : α → Activity β} {r : Option β} (h : (p.bind f).Passes t r es t') :
    (∃ a es₁ t₁ es₂, p.Passes t (some a) es₁ t₁ ∧ (f a).Passes t₁ r es₂ t' ∧ es = es₁ ++ es₂) ∨
      r = none ∧ p.Passes t none es t' := by
  induction p generalizing t es with
  | done a => exact .inl ⟨a, [], _, _, .done a _, h, rfl⟩
  | act op next ih =>
    cases h with
    | act answer h =>
      rcases ih answer h with ⟨a, es₁, t₁, es₂, ha, hf, rfl⟩ | ⟨hr, h⟩
      · exact .inl ⟨a, _, t₁, es₂, .act answer ha, hf, rfl⟩
      · exact .inr ⟨hr, .act answer h⟩
  | sleep ms next ih =>
    cases h with
    | sleep h =>
      rcases ih h with ⟨a, es₁, t₁, es₂, ha, hf, rfl⟩ | ⟨hr, h⟩
      · exact .inl ⟨a, es₁, t₁, es₂, .sleep ha, hf, rfl⟩
      · exact .inr ⟨hr, .sleep h⟩
  | stall =>
    cases h with
    | stall => exact .inr ⟨rfl, .stall _⟩

theorem passes_map {f : α → β} {r : Option β}
    (h : (p.bind fun a => .done (f a)).Passes t r es t') :
    ∃ r', p.Passes t r' es t' ∧ r = r'.map f := by
  rcases passes_bind h with ⟨a, es₁, t₁, es₂, hp, hdone, rfl⟩ | ⟨hr, hp⟩
  · cases hdone
    rw [List.append_nil]
    exact ⟨some a, hp, rfl⟩
  · exact ⟨none, hp, hr⟩

theorem passes_pause {ms : Nat} (h : (pause ms p).Passes t r es t') :
    p.Passes (t + ms) r es t' := by
  unfold pause at h
  split at h
  next hms =>
    subst hms
    exact h
  · cases h with
    | sleep h => exact h

theorem Passes.le (h : p.Passes t r es t') : t ≤ t' := by
  induction h with
  | done | stall => exact Nat.le_refl _
  | act answer h ih => exact ih
  | sleep h ih => exact Nat.le_of_add_right_le ih

theorem Ensures.passes {post : α → Nat → Prop} (h : p.Ensures post) (hp : p.Passes t r es t') :
    ∃ a, r = some a ∧ post a (t' - t) := by
  induction hp generalizing post with
  | done a t =>
    rw [Nat.sub_self]
    exact ⟨a, rfl, h⟩
  | act answer hp ih => exact ih (h answer)
  | @sleep ms next t r es t' hp ih =>
    have hnext : next.Ensures fun a elapsed => post a (ms + elapsed) := h
    obtain ⟨a, rfl, hpost⟩ := ih hnext
    have hle := hp.le
    have hsum : ms + (t' - (t + ms)) = t' - t := by omega
    rw [hsum] at hpost
    exact ⟨a, rfl, hpost⟩
  | stall t => exact h.elim

/-- An activity that always passes to its end ends whatever it is answered. -/
theorem ensures_of_passes {post : α → Nat → Prop}
    (h : ∀ r es t', p.Passes t r es t' → ∃ a, r = some a ∧ post a (t' - t)) :
    p.Ensures post := by
  induction p generalizing t post with
  | done a =>
    obtain ⟨_, ⟨rfl⟩, hpost⟩ := h _ _ _ (.done a t)
    rwa [Nat.sub_self] at hpost
  | act op next ih => exact fun answer => ih answer fun r es t' hp => h r _ t' (.act answer hp)
  | sleep ms next ih =>
    have hnext : next.Ensures fun a elapsed => post a (ms + elapsed) := by
      apply @ih (t + ms)
      intro r es t' hp
      obtain ⟨a, ha, hpost⟩ := h r es t' (.sleep hp)
      have hle := hp.le
      have hsum : t' - t = ms + (t' - (t + ms)) := by omega
      rw [hsum] at hpost
      exact ⟨a, ha, hpost⟩
    exact hnext
  | stall =>
    obtain ⟨_, hnone, _⟩ := h _ _ _ (.stall t)
    cases hnone

end

variable {α : Type}

/-- The latest of some times, and at the earliest a given one. -/
def latest (t : Nat) (ts : List Nat) : Nat := ts.foldr max t

theorem latest_max (t u : Nat) (ts : List Nat) : latest (max t u) ts = latest t (u :: ts) := by
  induction ts with
  | nil => exact Nat.max_comm t u
  | cons v ts ih =>
    change max v (latest (max t u) ts) = max u (max v (latest t ts))
    rw [ih]
    exact Nat.max_left_comm v u _

/-- The course of an activity that has not begun. -/
def Passage.Idle (x : Passage α) : Prop := x.result = none ∧ x.events = []

/-- Activities in lanes and others that wait have all ended: each of those that waited starts
when the lanes before it have ended, and the last one to end ends them all. -/
structure Fills (t : Nat) (past os : List α) (t' : Nat) (xs ys : List (Passage α)) : Prop where
  results : os.map some = past.reverse.map some ++ (xs ++ ys).map (·.result)
  starts : ∀ (i : Nat) y, ys[i]? = some y →
    y.start = latest t (((xs ++ ys).map (·.finish)).take (i + 1))
  finish : t' = latest t ((xs ++ ys).map (·.finish))

variable {t t' base now free clock : Nat} {past os : List α}
  {xs xs' ys : List (Passage α)} {a : α} {queued? place? : Option Nat} {lanes : List (Lane α)}
  {waiting : List (Activity α)} {r : Option (List α)} {es : List Event}

theorem Fills.of_lanes (h : Fills t past os t' xs ys)
    (hresults : xs'.map (·.result) = xs.map (·.result))
    (hfinish : xs'.map (·.finish) = xs.map (·.finish)) :
    Fills t past os t' xs' ys := by
  obtain ⟨results, starts, finish⟩ := h
  rw [List.map_append] at results finish
  simp only [List.map_append] at starts
  rw [← hresults] at results
  rw [← hfinish] at finish
  simp only [← hfinish] at starts
  constructor
  · rw [results, List.map_append]
  · intro i y hy
    rw [starts i y hy, List.map_append]
  · rw [finish, List.map_append]

/-- The course of a lane that has ended. -/
def Passage.ended (base clock : Nat) (a : α) : Passage α :=
  ⟨base + clock, some a, [], base + clock⟩

theorem Fills.ended (h : Fills (base + max free clock) (a :: past) os t' xs []) :
    Fills (base + free) past os t' (.ended base clock a :: xs) [] where
  results := by
    rw [h.results]
    simp [Passage.ended]
  starts := nofun
  finish := by
    rw [h.finish, ← Nat.add_max_add_left, latest_max]
    rfl

theorem Fills.started {y : Passage α}
    (h : Fills (base + max free clock) (a :: past) os t' (xs ++ [y]) ys)
    (hy : y.start = base + max free clock) :
    Fills (base + free) past os t' (.ended base clock a :: xs) (y :: ys) where
  results := by
    rw [h.results]
    simp [Passage.ended]
  starts i y' hy' := by
    cases i with
    | zero =>
      cases hy'
      rw [hy, ← Nat.add_max_add_left]
      exact Nat.max_comm _ _
    | succ i =>
      rw [h.starts i y' hy', ← Nat.add_max_add_left, latest_max]
      simp [Passage.ended]
  finish := by
    rw [h.finish, ← Nat.add_max_add_left, latest_max]
    simp [Passage.ended]

theorem passage_of_not_runs (base : Nat) {l : Lane α} (h : l.runs = false) :
    ∃ x : Passage α, x.start = base + l.clock ∧ x.Of l.activity ∧ x.events = [] := by
  obtain ⟨clock, place?, p⟩ := l
  cases p with
  | done a => exact ⟨.ended base clock a, rfl, .done a _, rfl⟩
  | act | sleep => cases h
  | stall => exact ⟨⟨base + clock, none, [], base + clock⟩, rfl, .stall _, rfl⟩

theorem passages_of_not_runs (base : Nat) (h : ∀ l ∈ lanes, l.runs = false) :
    ∃ xs : List (Passage α),
      List.Forall₂ (fun l x => x.start = base + l.clock ∧ x.Of l.activity) lanes xs ∧
      ∀ x ∈ xs, x.events = [] := by
  induction lanes with
  | nil => exact ⟨[], .nil, nofun⟩
  | cons l lanes ih =>
    rw [List.forall_mem_cons] at h
    obtain ⟨x, hstart, hx, hnone⟩ := passage_of_not_runs base h.1
    obtain ⟨xs, hxs, hnones⟩ := ih h.2
    exact ⟨x :: xs, .cons ⟨hstart, hx⟩ hxs, List.forall_mem_cons.2 ⟨hnone, hnones⟩⟩

/-- A lane is at the time its course starts from. -/
def Lane.Takes (base : Nat) (l : Lane α) (x : Passage α) : Prop :=
  x.start = base + l.clock ∧ x.Of l.activity

theorem Lane.Takes.sleep {place' : Option Nat} {ms : Nat} {next : Activity α} {x : Passage α}
    (h : Takes base ⟨clock + ms, place', next⟩ x) : Takes base ⟨clock, place?, .sleep ms next⟩
      ⟨base + clock, x.result, [] ++ x.events, x.finish⟩ := by
  obtain ⟨hstart, hx⟩ := h
  rw [Passage.Of, hstart, ← Nat.add_assoc] at hx
  exact ⟨rfl, .sleep hx⟩

theorem Lane.Takes.act {op : Op} {next : op.Answer → Activity α} {answer : op.Answer}
    {x : Passage α} (h : Takes base ⟨clock, place?, next answer⟩ x) :
    Takes base ⟨clock, place?, .act op next⟩
      ⟨base + clock, x.result, [⟨base + clock, op, answer⟩] ++ x.events, x.finish⟩ := by
  obtain ⟨hstart, hx⟩ := h
  rw [Passage.Of, hstart] at hx
  exact ⟨rfl, .act answer hx⟩

/-- Before the lane whose turn it is goes on in its course it does something in time. -/
theorem Lane.HasTurn.takes {before after : List (Lane α)} {l l' : Lane α} {done : List Event}
    (hturn : HasTurn lanes before l after)
    (hxs : List.Forall₂ (Takes base) (before ++ l' :: after) xs')
    (hstep : ∀ x : Passage α, l'.Takes base x →
      l.Takes base ⟨base + l.clock, x.result, done ++ x.events, x.finish⟩) :
    ∃ xs, List.Forall₂ (Takes base) lanes xs ∧ xs.map (·.result) = xs'.map (·.result) ∧
      xs.map (·.finish) = xs'.map (·.finish) ∧
      (Shuffle ((xs' ++ ys).map (·.events)) es →
        Shuffle ((xs ++ ys).map (·.events)) (done ++ es)) := by
  obtain ⟨before', x, after', rfl, hbefore, hx, hafter⟩ := forall₂_append_cons hxs
  refine ⟨before' ++ ⟨base + l.clock, x.result, done ++ x.events, x.finish⟩ :: after',
    ?_, ?_, ?_, ?_⟩
  · rw [hturn.lanes_eq]
    exact List.rel_append hbefore (.cons (hstep x hx) hafter)
  · simp
  · simp
  · intro h
    simp only [List.map_append, List.map_cons, List.append_assoc, List.cons_append] at h ⊢
    clear hstep
    induction done with
    | nil => exact h
    | cons e done ih => exact .cons ih

/-- Lanes, and activities that wait for one, pass in turns, each with a course of its own. -/
theorem Advances.passes {q : Activity (List α)}
    (hadvances : Advances queued? now free past lanes waiting q)
    (hahead : Lane.Ahead now free lanes) (h : q.Passes (base + now) r es t') :
    ∃ xs ys : List (Passage α), List.Forall₂ (Lane.Takes base) lanes xs ∧
      List.Forall₂ (fun p y => base ≤ y.start ∧ (y.Of p ∨ y.Idle)) waiting ys ∧
      Shuffle ((xs ++ ys).map (·.events)) es ∧
      ∀ os, r = some os → Fills (base + free) past os t' xs ys := by
  induction hadvances generalizing es with
  | finish queued? now free past =>
    have hfront : now ≤ free := hahead.front (by simp)
    have h := passes_pause h
    rw [Nat.add_assoc, Nat.add_sub_cancel' hfront] at h
    cases h with
    | done =>
      refine ⟨[], [], .nil, .nil, .nil (by simp), ?_⟩
      rintro os ⟨rfl⟩
      exact ⟨by simp, by simp, rfl⟩
  | @ended queued? now free past clock place? a rest q _ ih =>
    obtain ⟨xs, ys, hxs, hys, hshuffle, hfills⟩ := ih hahead.ended h
    cases hys
    refine ⟨.ended base clock a :: xs, [], .cons ⟨rfl, .done a _⟩ hxs, .nil,
      hshuffle.cons_nil, ?_⟩
    intro os hr
    exact (hfills os hr).ended
  | @start queued? now free past clock place? a rest p waiting q _ ih =>
    obtain ⟨xs', ys, hxs, hys, hshuffle, hfills⟩ := ih (hahead.ended.started hahead.le_ended) h
    obtain ⟨xs, y, _, rfl, hrest, ⟨hstart, hy⟩, hnil⟩ := forall₂_append_cons hxs
    cases hnil
    rw [List.append_assoc] at hshuffle
    have hlater : base ≤ y.start := hstart ▸ Nat.le_add_right base _
    refine ⟨.ended base clock a :: xs, y :: ys, .cons ⟨rfl, .done a _⟩ hrest,
      .cons ⟨hlater, .inl hy⟩ hys, hshuffle.cons_nil, ?_⟩
    intro os hr
    exact (hfills os hr).started hstart
  | @sleep queued? now free past lanes before clock place? ms next after waiting q hturn _ ih =>
    have hlater : Lane.Ahead now free
        (before ++ ⟨clock + ms, (requeue ms place? queued?).1, next⟩ :: after) :=
      (hturn.ahead (Nat.le_add_right _ _)).mono (hahead.present hturn)
    obtain ⟨xs', ys, hxs', hys, hshuffle, hfills⟩ := ih hlater h
    obtain ⟨xs, hxs, hresults, hfinish, hinto⟩ := hturn.takes hxs' fun _ => Lane.Takes.sleep
    exact ⟨xs, ys, hxs, hys, hinto hshuffle,
      fun os hr => (hfills os hr).of_lanes hresults hfinish⟩
  | @act queued? now free past lanes before clock place? after waiting op next q hturn _ ih =>
    have hpresent : now ≤ clock := hahead.present hturn
    have h := passes_pause h
    rw [Nat.add_assoc, Nat.add_sub_cancel' hpresent] at h
    cases h with
    | act answer h =>
      obtain ⟨xs', ys, hxs', hys, hshuffle, hfills⟩ := ih answer (hturn.ahead (Nat.le_refl _)) h
      obtain ⟨xs, hxs, hresults, hfinish, hinto⟩ := hturn.takes hxs' fun _ => Lane.Takes.act
      exact ⟨xs, ys, hxs, hys, hinto hshuffle,
        fun os hr => (hfills os hr).of_lanes hresults hfinish⟩
  | @stuck queued? now free past clock place? rest waiting hturn =>
    cases h with
    | stall =>
      obtain ⟨xs, hxs, hnone⟩ := passages_of_not_runs base (Turn.runs_of_next?_none hturn)
      refine ⟨xs, waiting.map fun _ => ⟨base, none, [], base⟩, hxs, ?_, ?_, by simp⟩
      · rw [List.forall₂_map_right_iff, List.forall₂_same]
        exact fun p hp => ⟨Nat.le_refl _, .inr ⟨rfl, rfl⟩⟩
      · apply Shuffle.nil
        simp only [List.map_append, List.map_map, List.forall_mem_append, List.forall_mem_map]
        exact ⟨hnone, fun p hp => rfl⟩

/-- Each activity starts when all have ended up to the one that is `k` places before it. -/
def Spaced (t k : Nat) (xs : List (Passage α)) : Prop :=
  ∀ (i : Nat) x, xs[i]? = some x → x.start = latest t ((xs.map (·.finish)).take (i + 1 - k))

/-- Activities have all ended of which at most `k` ran at once. -/
structure Completes (t k : Nat) (os : List α) (t' : Nat) (xs : List (Passage α)) : Prop where
  results : os.map some = xs.map (·.result)
  starts : Spaced t k xs
  finish : t' = latest t (xs.map (·.finish))

theorem Fills.completes {k : Nat} (h : Fills t [] os t' xs ys) (hstart : ∀ x ∈ xs, x.start = t)
    (hlanes : xs.length ≤ k) (hwait : ys = [] ∨ xs.length = k) :
    Completes t k os t' (xs ++ ys) where
  results := h.results
  starts i x hx := by
    rcases Nat.lt_or_ge i xs.length with hi | hi
    · rw [List.getElem?_append_left hi] at hx
      have hnone : i + 1 - k = 0 := by omega
      rw [hnone]
      exact hstart x (List.mem_of_getElem? hx)
    · rw [List.getElem?_append_right hi] at hx
      rcases hwait with rfl | rfl
      · cases hx
      · have hindex : i + 1 - xs.length = i - xs.length + 1 := by omega
        rw [h.starts _ x hx, hindex]
  finish := h.finish

/-- Side by side, activities do what they do in turns, and if all end then each has started when
there was room for it. -/
theorem passes_fanOut {limit : Option Nat} {ps : List (Activity α)} (hlimit : limit ≠ some 0)
    (h : (fanOut limit ps).Passes t r es t') : ∃ xs : List (Passage α),
      List.Forall₂ (fun p x => t ≤ x.start ∧ (x.Of p ∨ x.Idle)) ps xs ∧
      Shuffle (xs.map (·.events)) es ∧
      ∀ os, r = some os → Completes t (limit.getD ps.length) os t' xs := by
  obtain ⟨_, hadvances⟩ := advances_fanOut ps hlimit
  obtain ⟨xs, ys, hxs, hys, hshuffle, hfills⟩ := hadvances.passes Lane.ahead_start h
  rw [List.forall₂_map_left_iff] at hxs
  have hlength : xs.length = min (limit.getD ps.length) ps.length := by
    rw [← hxs.length_eq, List.length_take]
  have hwait : ys.length = ps.length - limit.getD ps.length := by
    rw [← hys.length_eq, List.length_drop]
  apply Exists.intro (xs ++ ys)
  constructor
  · rw [← List.take_append_drop (limit.getD ps.length) ps]
    exact List.rel_append (hxs.imp fun _ _ hx => ⟨Nat.le_of_eq hx.1.symm, .inl hx.2⟩) hys
  · apply And.intro hshuffle
    intro os hr
    apply (hfills os hr).completes
    · intro x hx
      obtain ⟨before, after, rfl⟩ := List.append_of_mem hx
      obtain ⟨_, p, _, _, _, hp, _⟩ := forall₂_append_cons hxs.flip
      exact hp.1
    · omega
    · by_cases hroom : ps.length ≤ limit.getD ps.length
      · left
        apply List.eq_nil_of_length_eq_zero
        omega
      · right
        omega

theorem Completes.of {k : Nat} {ps : List (Activity α)} (h : Completes t k os t' xs)
    (hps : List.Forall₂ (fun p x => t ≤ x.start ∧ (x.Of p ∨ x.Idle)) ps xs) :
    List.Forall₂ (fun p (x : Passage α) => x.Of p) ps xs := by
  have hsome : ∀ x ∈ xs, x.result ≠ none := by
    intro x hx hnone
    have hmem := List.mem_map_of_mem (f := (·.result)) hx
    rw [← h.results, hnone] at hmem
    simp at hmem
  apply List.Forall₂.flip
  apply ((List.forall₂_and_left _ _).2 ⟨hsome, hps.flip⟩).imp
  intro x p hx
  exact hx.2.2.resolve_right fun hidle => hx.1 hidle.1

end Activity

end DataPipeline
