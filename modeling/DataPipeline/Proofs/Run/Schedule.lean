import DataPipeline.Proofs.Run.Passage

namespace DataPipeline

namespace Activity

variable {α : Type} {t t' u k k' m n : Nat} {ts us ds : List Nat}

theorem latest_le_iff : latest t ts ≤ u ↔ t ≤ u ∧ ∀ v ∈ ts, v ≤ u := by
  induction ts with
  | nil => simp [latest]
  | cons v ts ih =>
    have hmax : latest t (v :: ts) = max v (latest t ts) := rfl
    rw [hmax, Nat.max_le, ih, List.forall_mem_cons]
    exact and_left_comm

theorem le_latest : t ≤ latest t ts := (latest_le_iff.1 (Nat.le_refl _)).1

theorem le_latest_of_mem {v : Nat} (h : v ∈ ts) : v ≤ latest t ts :=
  (latest_le_iff.1 (Nat.le_refl _)).2 v h

theorem latest_concat : latest t (ts ++ [u]) = max (latest t ts) u := by
  have happend : latest t (ts ++ [u]) = latest (max u t) ts := List.foldr_append
  rw [happend, Nat.max_comm u t, latest_max]
  exact Nat.max_comm u _

theorem latest_subset (h : ∀ v ∈ ts, v ∈ us) : latest t ts ≤ latest t us := by
  rw [latest_le_iff]
  exact ⟨le_latest, fun v hv => le_latest_of_mem (h v hv)⟩

theorem latest_take_le (h : m ≤ n) : latest t (ts.take m) ≤ latest t (ts.take n) :=
  latest_subset (List.take_subset_take_left ts h)

theorem latest_forall₂ (h : List.Forall₂ (· ≤ ·) ts us) : latest t ts ≤ latest t us := by
  induction h with
  | nil => exact Nat.le_refl t
  | cons hle h ih => exact max_le_max hle ih

/-- When activities end that begin at a time and last for some times, if at most `k` of them run
at once. -/
def finishes (t k : Nat) (ds : List Nat) : List Nat :=
  ds.foldl (fun ends d => ends ++ [latest t (ends.take (ends.length + 1 - k)) + d]) []

theorem length_finishes : (finishes t k ds).length = ds.length := by
  induction ds using List.reverseRecOn with
  | nil => rfl
  | append_singleton ds d ih =>
    rw [finishes, List.foldl_append]
    change ((finishes t k ds) ++ [_]).length = _
    rw [List.length_append, List.length_append, ih]
    rfl

theorem finishes_concat {d : Nat} : finishes t k (ds ++ [d]) =
    finishes t k ds ++ [latest t ((finishes t k ds).take (ds.length + 1 - k)) + d] := by
  rw [finishes, List.foldl_append]
  change finishes t k ds ++
    [latest t ((finishes t k ds).take ((finishes t k ds).length + 1 - k)) + d] = _
  rw [length_finishes]

/-- How long activities take that last for some times, if at most `k` of them run at once. -/
def makespan (k : Nat) (ds : List Nat) : Nat := latest 0 (finishes 0 k ds)

theorem forall₂_finishes (h : k ≤ k') :
    List.Forall₂ (· ≤ ·) (finishes t k' ds) (finishes t k ds) := by
  induction ds using List.reverseRecOn with
  | nil => exact .nil
  | append_singleton ds d ih =>
    rw [finishes_concat, finishes_concat]
    apply List.rel_append ih
    apply List.Forall₂.cons _ .nil
    apply Nat.add_le_add_right
    calc latest t ((finishes t k' ds).take (ds.length + 1 - k'))
        ≤ latest t ((finishes t k ds).take (ds.length + 1 - k')) :=
          latest_forall₂ (List.forall₂_take _ ih)
      _ ≤ latest t ((finishes t k ds).take (ds.length + 1 - k)) := latest_take_le (by omega)

theorem makespan_antitone (h : k ≤ k') : makespan k' ds ≤ makespan k ds :=
  latest_forall₂ (forall₂_finishes h)

theorem makespan_one : makespan 1 ds = ds.sum := by
  rw [makespan]
  induction ds using List.reverseRecOn with
  | nil => rfl
  | append_singleton ds d ih =>
    have hall : (finishes 0 1 ds).take (ds.length + 1 - 1) = finishes 0 1 ds :=
      List.take_of_length_le (by rw [length_finishes]; omega)
    rw [finishes_concat, latest_concat, hall, ih, List.sum_append, List.sum_singleton]
    omega

theorem makespan_all (h : ds.length ≤ k) : makespan k ds = ds.foldr max 0 := by
  have hfinishes : finishes 0 k ds = ds := by
    induction ds using List.reverseRecOn with
    | nil => rfl
    | append_singleton ds d ih =>
      rw [List.length_append, List.length_singleton] at h
      have hnone : ds.length + 1 - k = 0 := by omega
      rw [finishes_concat, ih (by omega), hnone, List.take_zero]
      exact congrArg (fun d => ds ++ [d]) (Nat.zero_add d)
  rw [makespan, hfinishes]
  rfl

variable {xs : List (Passage α)} {x : Passage α}

theorem Spaced.pairwise_start (h : Spaced t k xs) : (xs.map (·.start)).Pairwise (· ≤ ·) := by
  rw [List.pairwise_map, List.pairwise_iff_getElem]
  intro i j hi hj hlt
  rw [h i _ (List.getElem?_eq_getElem hi), h j _ (List.getElem?_eq_getElem hj)]
  exact latest_take_le (by omega)

theorem Spaced.concat (hk : 0 < k) (h : Spaced t k (xs ++ [x])) :
    Spaced t k xs ∧ x.start = latest t ((xs.map (·.finish)).take (xs.length + 1 - k)) := by
  have htake (m : Nat) (hm : m ≤ xs.length) :
      ((xs ++ [x]).map (·.finish)).take m = (xs.map (·.finish)).take m := by
    rw [List.map_append, List.take_append_of_le_length (by simpa using hm)]
  constructor
  · intro i y hy
    have hi : i < xs.length := (List.getElem?_eq_some_iff.1 hy).1
    rw [h i y (by rw [List.getElem?_append_left hi, hy]), htake _ (by omega)]
  · rw [h xs.length x (by simp), htake _ (by omega)]

theorem Spaced.map_finish (hk : xs ≠ [] → 0 < k) (h : Spaced t k xs)
    (hds : List.Forall₂ (fun (x : Passage α) d => x.finish = x.start + d) xs ds) :
    xs.map (·.finish) = finishes t k ds := by
  induction xs using List.reverseRecOn generalizing ds with
  | nil =>
    cases hds
    rfl
  | append_singleton xs x ih =>
    obtain ⟨ds, d, _, rfl, hrest, hd, hnil⟩ := forall₂_append_cons hds
    cases hnil
    have hk := hk (by simp)
    obtain ⟨hxs, hstart⟩ := h.concat hk
    have hfinish := ih (fun _ => hk) hxs hrest
    rw [hfinish, hrest.length_eq] at hstart
    rw [finishes_concat, List.map_append, hfinish, List.map_singleton, hd, hstart]

/-- An activity lasts for a time, whatever it is answered. -/
def Lasts (p : Activity α) (d : Nat) : Prop := p.Ensures fun _ elapsed => elapsed = d

theorem Lasts.finish_eq {p : Activity α} {d : Nat} (h : p.Lasts d) (hx : x.Of p) :
    x.finish = x.start + d := by
  obtain ⟨_, _, hd⟩ := Ensures.passes h hx
  have hle := Passes.le hx
  omega

theorem forall₂_finish_eq {ps : List (Activity α)}
    (hxs : List.Forall₂ (fun p x => x.Of p) ps xs) (hds : List.Forall₂ Lasts ps ds) :
    List.Forall₂ (fun (x : Passage α) d => x.finish = x.start + d) xs ds := by
  induction hxs generalizing ds with
  | nil =>
    cases hds
    exact .nil
  | cons hx hxs ih =>
    cases hds with
    | cons hd hds => exact .cons (hd.finish_eq hx) (ih hds)

theorem getD_pos {limit : Option Nat} (hlimit : limit ≠ some 0) (hn : n ≠ 0) :
    0 < limit.getD n := by
  cases limit with
  | none => exact Nat.pos_of_ne_zero hn
  | some k => exact Nat.pos_of_ne_zero fun h => hlimit (congrArg some h)

theorem lasts_fanOut {limit : Option Nat} {ps : List (Activity α)} (hlimit : limit ≠ some 0)
    (h : List.Forall₂ Lasts ps ds) :
    (fanOut limit ps).Lasts (makespan (limit.getD ps.length) ds) := by
  apply ensures_of_passes (t := 0)
  intro r es t' hp
  have hends :
      List.Forall₂ (fun (p : Activity α) d => p.Ensures fun _ elapsed => elapsed ≤ d) ps ds :=
    h.imp fun _ _ hp => hp.mono fun _ _ helapsed => Nat.le_of_eq helapsed
  obtain ⟨os, hr, _⟩ := (ensures_fanOut_limited hlimit hends).passes hp
  obtain ⟨xs, hxs, _, hcompletes⟩ := passes_fanOut hlimit hp
  obtain ⟨hresults, hspaced, hfinish⟩ := hcompletes os hr
  have hpassed := (Completes.mk hresults hspaced hfinish).of hxs
  have hroom : xs ≠ [] → 0 < limit.getD ps.length := by
    intro hne
    rw [hpassed.length_eq]
    exact getD_pos hlimit fun h => hne (List.eq_nil_of_length_eq_zero h)
  apply Exists.intro os
  rw [hfinish, hspaced.map_finish hroom (forall₂_finish_eq hpassed h)]
  exact ⟨hr, rfl⟩

/-- Whether an activity has started and not ended at a time. -/
def Passage.runsAt (time : Nat) (x : Passage α) : Bool := x.start ≤ time && time < x.finish

theorem Passage.runsAt_iff {time : Nat} :
    x.runsAt time = true ↔ x.start ≤ time ∧ time < x.finish := by
  rw [runsAt, Bool.and_eq_true, decide_eq_true_iff, decide_eq_true_iff]

/-- At no time do more than `k` activities run. -/
theorem Spaced.countP_runsAt_le (hk : xs ≠ [] → 0 < k) (h : Spaced t k xs) (time : Nat) :
    xs.countP (·.runsAt time) ≤ k := by
  induction xs using List.reverseRecOn with
  | nil => exact Nat.zero_le k
  | append_singleton xs x ih =>
    have hk := hk (by simp)
    obtain ⟨hxs, hstart⟩ := h.concat hk
    rw [List.countP_append, List.countP_singleton]
    by_cases hx : x.runsAt time
    · -- by then all have ended up to the one `k` places before, and there are fewer than `k`
      -- others
      have hended : (xs.take (xs.length + 1 - k)).countP (·.runsAt time) = 0 := by
        rw [List.countP_eq_zero]
        intro y hy hruns
        have hmem : y.finish ∈ (xs.map (·.finish)).take (xs.length + 1 - k) := by
          rw [← List.map_take]
          exact List.mem_map_of_mem hy
        have hfinish : y.finish ≤ x.start := hstart ▸ le_latest_of_mem hmem
        have hstarted := (Passage.runsAt_iff.1 hx).1
        have hunfinished := (Passage.runsAt_iff.1 hruns).2
        omega
      have hrest := List.countP_le_length (p := (·.runsAt time))
        (l := xs.drop (xs.length + 1 - k))
      rw [List.length_drop] at hrest
      rw [← List.take_append_drop (xs.length + 1 - k) xs, List.countP_append, hended, if_pos hx]
      omega
    · rw [if_neg hx]
      exact ih (fun _ => hk) hxs

end Activity

end DataPipeline
