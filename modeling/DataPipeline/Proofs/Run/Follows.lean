import DataPipeline.Proofs.Run.Timeline

namespace DataPipeline

namespace Activity

variable {α β : Type}

/-- The second activity does what the first one does. Before an action it may leave marks,
whatever these are answered. -/
inductive Follows (marks : Op → Prop) (lost : Activity α → Prop) :
    Activity α → Activity α → Prop where
  | lost {p q} (h : lost p) : Follows marks lost p q
  | done (a : α) : Follows marks lost (.done a) (.done a)
  | act {op : Op} {next next' : op.Answer → Activity α} (hop : ¬marks op)
      (h : ∀ answer, Follows marks lost (next answer) (next' answer)) :
      Follows marks lost (.act op next) (.act op next')
  | mark {op m : Op} {next : op.Answer → Activity α} {q : m.Answer → Activity α} (hm : marks m)
      (h : ∀ answer, Follows marks lost (.act op next) (q answer)) :
      Follows marks lost (.act op next) (.act m q)
  | sleep {p q} (ms : Nat) (h : Follows marks lost p q) :
      Follows marks lost (.sleep ms p) (.sleep ms q)
  | stall : Follows marks lost .stall .stall

variable {marks : Op → Prop} {lost lost' : Activity α → Prop} {p q : Activity α}

theorem Follows.mono (h : Follows marks lost p q) (hlost : ∀ p, lost p → lost' p) :
    Follows marks lost' p q := by
  induction h with
  | lost h => exact .lost (hlost _ h)
  | done a => exact .done a
  | act hop h ih => exact .act hop ih
  | mark hm h ih => exact .mark hm ih
  | sleep ms h ih => exact .sleep ms ih
  | stall => exact .stall

theorem Follows.bind {lost' : Activity β → Prop} {f g : α → Activity β}
    (h : Follows marks lost p q) (hlost : ∀ p, lost p → lost' (p.bind f))
    (hf : ∀ a, p.Ends a → Follows marks lost' (f a) (g a)) :
    Follows marks lost' (p.bind f) (q.bind g) := by
  induction h with
  | lost h => exact .lost (hlost _ h)
  | done a => exact hf a (.done a)
  | act hop h ih => exact .act hop fun answer => ih answer fun a ha => hf a (.act answer ha)
  | mark hm h ih => exact .mark hm fun answer => ih answer hf
  | sleep ms h ih => exact .sleep ms (ih fun a ha => hf a (.sleep ha))
  | stall => exact .stall

theorem Follows.pause {ms : Nat} (h : Follows marks lost p q) :
    Follows marks lost (pause ms p) (pause ms q) := by
  unfold Activity.pause
  split
  · exact h
  · exact .sleep ms h

theorem Follows.cutAfter (h : Follows marks (fun _ => False) p q) (limit : Nat) :
    Follows marks (fun _ => False) (p.cutAfter limit) (q.cutAfter limit) := by
  induction h generalizing limit with
  | lost h => exact h.elim
  | done a => exact .done (some a)
  | act hop h ih => exact .act hop fun answer => ih answer limit
  | mark hm h ih => exact .mark hm fun answer => ih answer limit
  | sleep ms h ih =>
    rw [Activity.cutAfter, Activity.cutAfter]
    split
    · exact .sleep ms (ih _)
    · exact .sleep limit (.done none)
  | stall => exact .sleep limit (.done none)

theorem Follows.within (h : Follows marks (fun _ => False) p q) (limit : Option Nat) :
    Follows marks (fun _ => False) (p.within limit) (q.within limit) := by
  cases limit with
  | some ms => exact h.cutAfter ms
  | none => exact h.bind (fun _ h => h) fun a _ => .done (some a)

/-- A lane follows another at the same time and place. -/
structure Lane.Follows (marks : Op → Prop) (lost : Activity α → Prop)
    (l l' : Lane α) : Prop where
  clock : l.clock = l'.clock
  place? : l.place? = l'.place?
  activity : Activity.Follows marks lost l.activity l'.activity

variable {l l' : Lane α} {lanes lanes' : List (Lane α)} {waiting waiting' : List (Activity α)}

/-- Lanes that agree on what their turn depends on. -/
structure Lane.Agrees (l : Lane α) (l' : Lane β) : Prop where
  clock : l.clock = l'.clock
  place? : l.place? = l'.place?
  runs : l.runs = l'.runs
  ended : l.ended = l'.ended

theorem Lane.Agrees.symm {l : Lane α} {l' : Lane β} (h : l.Agrees l') : l'.Agrees l :=
  ⟨h.clock.symm, h.place?.symm, h.runs.symm, h.ended.symm⟩

theorem Lane.Follows.agrees (h : l.Follows marks lost l') (hl : ¬lost l.activity) :
    l.Agrees l' := by
  obtain ⟨clock, place?, p⟩ := l
  obtain ⟨clock', place?', p'⟩ := l'
  obtain ⟨hclock, hplace, h⟩ := h
  cases h with
  | lost h => exact absurd h hl
  | done | act | mark | sleep | stall => exact ⟨hclock, hplace, rfl, rfl⟩

section

variable {R : Lane α → Lane β → Prop} {other : List (Lane β)}
  (hR : ∀ l l', R l l' → l.Agrees l') (h : List.Forall₂ R lanes other)
include hR h

/-- Lanes that agree with each other give the turn to the same one. -/
theorem Turn.next?_rel :
    (next? lanes = none ∧ next? other = none) ∨
      ∃ t t', next? lanes = some t ∧ next? other = some t' ∧
        List.Forall₂ R t.before t'.before ∧ R t.lane t'.lane ∧
        List.Forall₂ R t.after t'.after := by
  induction h with
  | nil => exact .inl ⟨rfl, rfl⟩
  | @cons l l' lanes lanes' hhead htail ih =>
    obtain ⟨hclock, hplace, hruns, _⟩ := hR l l' hhead
    rw [next?, next?]
    rcases ih with ⟨hnone, hnone'⟩ | ⟨t, t', ht, ht', hbefore, hlane, hafter⟩
    · rw [hnone, hnone', ← hruns]
      dsimp only
      split
      · exact .inr ⟨_, _, rfl, rfl, .nil, hhead, htail⟩
      · exact .inl ⟨rfl, rfl⟩
    · obtain ⟨hclock', hplace', _⟩ := hR _ _ hlane
      have hprecedes : l.precedes t.lane = l'.precedes t'.lane := by
        rw [Lane.precedes, Lane.precedes, hclock, hplace, hclock', hplace']
      rw [ht, ht', ← hruns]
      dsimp only
      rw [← hprecedes]
      split
      · exact .inr ⟨_, _, rfl, rfl, .nil, hhead, htail⟩
      · exact .inr ⟨_, _, rfl, rfl, .cons hhead hbefore, hlane, hafter⟩

theorem Lane.HasTurn.rel {before after : List (Lane α)} (hturn : HasTurn lanes before l after) :
    ∃ before' l' after', HasTurn other before' l' after' ∧
      List.Forall₂ R before before' ∧ R l l' ∧
      List.Forall₂ R after after' := by
  have hunended : ∀ first ∈ other.head?, first.ended = false := by
    cases h with
    | nil => nofun
    | @cons first first' _ _ hhead _ =>
      rintro _ ⟨rfl⟩
      rw [← (hR _ _ hhead).ended]
      exact hturn.unended first rfl
  rcases Turn.next?_rel hR h with ⟨hnone, _⟩ | ⟨t, t', ht, ht', hbefore, hlane, hafter⟩
  · cases hnone.symm.trans hturn.next
  · cases ht.symm.trans hturn.next
    exact ⟨_, _, _, ⟨t'.lanes_eq, ht', hunended⟩, hbefore, hlane, hafter⟩

theorem Turn.next?_none_rel (hturn : next? lanes = none) : next? other = none := by
  rcases next?_rel hR h with ⟨_, hnone⟩ | ⟨t, _, ht, _⟩
  · exact hnone
  · cases hturn.symm.trans ht

end

theorem lost_or_alive (lanes : List (Lane α)) (waiting : List (Activity α)) :
    (∃ p ∈ Lane.activities lanes waiting, lost p) ∨ ∀ l ∈ lanes, ¬lost l.activity := by
  by_cases h : ∃ p ∈ Lane.activities lanes waiting, lost p
  · exact .inl h
  · right
    intro l hl hlost
    exact h ⟨l.activity, List.mem_append_left _ (List.mem_map_of_mem hl), hlost⟩

section

variable (h : List.Forall₂ (Lane.Follows marks lost) lanes lanes')
  (halive : ∀ l ∈ lanes, ¬lost l.activity)
include h halive

theorem Lane.Follows.flip :
    List.Forall₂ (fun l' l => l.Follows marks lost l' ∧ ¬lost l.activity) lanes' lanes :=
  ((List.forall₂_and_left _ _).2 ⟨halive, h⟩).flip.imp fun _ _ h => h.symm

/-- The turn of a lane is that of the lane that it is followed by. -/
theorem Lane.HasTurn.followed {before' after' : List (Lane α)} {clock : Nat}
    {place? : Option Nat} {p' : Activity α}
    (hturn' : HasTurn lanes' before' ⟨clock, place?, p'⟩ after') :
    ∃ before p after, HasTurn lanes before ⟨clock, place?, p⟩ after ∧ ¬lost p ∧
      p.Follows marks lost p' ∧ List.Forall₂ (Lane.Follows marks lost) before before' ∧
      List.Forall₂ (Lane.Follows marks lost) after after' := by
  obtain ⟨before, ⟨clock, place?, p⟩, after, hturn, hbefore, ⟨hlane, hl⟩, hafter⟩ :=
    hturn'.rel (fun _ _ h => (h.1.agrees h.2).symm) (Lane.Follows.flip h halive)
  obtain ⟨rfl, rfl, hp⟩ := hlane
  exact ⟨before, p, after, hturn, hl, hp, hbefore.flip.imp fun _ _ h => h.1,
    hafter.flip.imp fun _ _ h => h.1⟩

theorem Lane.Follows.ended {rest' : List (Lane α)} {clock : Nat} {place? : Option Nat} {a : α}
    (hlanes : lanes' = ⟨clock, place?, .done a⟩ :: rest') :
    ∃ rest, lanes = ⟨clock, place?, .done a⟩ :: rest ∧
      List.Forall₂ (Lane.Follows marks lost) rest rest' := by
  cases h with
  | nil => cases hlanes
  | @cons l _ rest _ hl hrest =>
    cases hlanes
    obtain ⟨clock, place?, p⟩ := l
    obtain ⟨rfl, rfl, hp⟩ := hl
    cases hp with
    | lost h => exact absurd h (halive _ List.mem_cons_self)
    | done => exact ⟨rest, rfl, hrest⟩

end

/-- Side by side, activities that follow others follow them still. -/
theorem Advances.follows {lost' : Activity (List α) → Prop} {queued? : Option Nat}
    {now free : Nat} {results : List α} {q' : Activity (List α)}
    (hadvances : Advances queued? now free results lanes' waiting' q')
    (hlost : ∀ {results ps q}, Interleaves results ps q → (∃ p ∈ ps, lost p) → lost' q)
    (hlanes : List.Forall₂ (Lane.Follows marks lost) lanes lanes')
    (hwaiting : List.Forall₂ (Activity.Follows marks lost) waiting waiting')
    (hempty : lanes = [] → waiting = []) :
    Activity.Follows marks lost' (advance queued? now free results lanes waiting) q' := by
  -- along the turns of the second ones; one that leaves a mark has the next turn again
  induction hadvances generalizing lanes waiting with
  | finish =>
    cases hlanes
    cases hwaiting
    rw [advance]
    exact .pause (.done _)
  | ended _ ih =>
    rcases lost_or_alive lanes waiting with hgone | halive
    · exact .lost (hlost (advances_advance hempty).interleaves hgone)
    obtain ⟨rest, rfl, hrest⟩ := Lane.Follows.ended hlanes halive rfl
    cases hwaiting
    rw [advance]
    exact ih hrest .nil fun _ => rfl
  | start _ ih =>
    rcases lost_or_alive lanes waiting with hgone | halive
    · exact .lost (hlost (advances_advance hempty).interleaves hgone)
    obtain ⟨rest, rfl, hrest⟩ := Lane.Follows.ended hlanes halive rfl
    cases hwaiting with
    | cons hp hps =>
      rw [advance]
      exact ih (List.rel_append hrest (.cons ⟨rfl, rfl, hp⟩ .nil)) hps (by simp)
  | sleep hturn' _ ih =>
    rcases lost_or_alive lanes waiting with hgone | halive
    · exact .lost (hlost (advances_advance hempty).interleaves hgone)
    obtain ⟨before, p, after, hturn, hp, hfollows, hbefore, hafter⟩ :=
      hturn'.followed hlanes halive
    cases hfollows with
    | lost h => exact absurd h hp
    | sleep ms h =>
      rw [advance_sleep hturn]
      exact ih (List.rel_append hbefore (.cons ⟨rfl, rfl, h⟩ hafter)) hwaiting (by simp)
  | @act queued? now free results lanes' _ clock _ _ waiting' _ _ q' hturn' _ ih =>
    rcases lost_or_alive lanes waiting with hgone | halive
    · exact .lost (hlost (advances_advance hempty).interleaves hgone)
    obtain ⟨before, p, after, hturn, hp, hfollows, hbefore, hafter⟩ :=
      hturn'.followed hlanes halive
    cases hfollows with
    | lost h => exact absurd h hp
    | act hop h =>
      rw [advance_act hturn]
      apply Follows.pause
      apply Follows.act hop
      intro answer
      exact ih answer
        (List.rel_append hbefore (.cons ⟨rfl, rfl, h answer⟩ hafter)) hwaiting (by simp)
    | mark hm h =>
      rw [advance_act hturn]
      apply Follows.pause
      apply Follows.mark hm
      intro answer
      have hnext : Follows marks lost' (advance queued? clock free results lanes waiting)
          (q' answer) := by
        apply ih answer _ hwaiting hempty
        rw [hturn.lanes_eq]
        exact List.rel_append hbefore (.cons ⟨rfl, rfl, h answer⟩ hafter)
      rw [advance_act hturn, Nat.sub_self] at hnext
      exact hnext
  | stuck hturn' =>
    rcases lost_or_alive lanes waiting with hgone | halive
    · exact .lost (hlost (advances_advance hempty).interleaves hgone)
    have hturn := Turn.next?_none_rel (fun _ _ h => (h.1.agrees h.2).symm)
      (Lane.Follows.flip hlanes halive) hturn'
    cases hlanes with
    | @cons l _ _ _ hl hrest =>
      obtain ⟨clock, place?, p⟩ := l
      obtain ⟨rfl, rfl, h⟩ := hl
      cases h with
      | lost h => exact absurd h (halive _ List.mem_cons_self)
      | stall =>
        rw [advance_stall hturn]
        exact .stall

theorem follows_fanOut {lost' : Activity (List α) → Prop} {limit : Option Nat}
    {ps qs : List (Activity α)} (hlimit : limit ≠ some 0)
    (hlost : ∀ {results ps q}, Interleaves results ps q → (∃ p ∈ ps, lost p) → lost' q)
    (h : List.Forall₂ (Activity.Follows marks lost) ps qs) :
    Activity.Follows marks lost' (fanOut limit ps) (fanOut limit qs) := by
  unfold fanOut
  rw [← h.length_eq]
  apply (advances_advance _).follows hlost
  · rw [List.forall₂_map_left_iff, List.forall₂_map_right_iff]
    apply (List.forall₂_take _ h).imp
    intro p q hp
    exact ⟨rfl, rfl, hp⟩
  · exact List.forall₂_drop _ h
  · exact drop_started hlimit
  · rw [h.length_eq]
    exact drop_started hlimit

theorem Follows.run_eq {a : α} {w w' : World} (h : Follows (fun _ => False) lost p q)
    (hrun : p.run w = some (a, w')) (hlost : ∀ p, lost p → ¬p.Ends a) :
    q.run w = some (a, w') ∧ q.timeline w = p.timeline w := by
  induction h generalizing w with
  | lost h => exact absurd (ends_of_run hrun) (hlost _ h)
  | done a => exact ⟨hrun, rfl⟩
  | act hop h ih =>
    obtain ⟨hsame, htimes⟩ := ih _ hrun
    exact ⟨hsame, congrArg _ htimes⟩
  | mark hm h ih => exact hm.elim
  | sleep ms h ih => exact ih hrun
  | stall => cases hrun

/-- However an activity ends, its result is not a good one. -/
def Astray (good : α → Prop) (p : Activity α) : Prop := ∀ a, p.Ends a → ¬good a

theorem astray_bind {good : α → Prop} {good' : β → Prop} {f : α → Activity β}
    (h : Astray good p) (hf : ∀ a b, (f a).Ends b → good' b → good a) :
    Astray good' (p.bind f) := by
  intro b hb hgood
  obtain ⟨a, ha, hb⟩ := ends_bind.1 hb
  exact h a ha (hf a b hb hgood)

theorem astray_interleaves {good : α → Prop} {results : List α} {ps : List (Activity α)}
    {q : Activity (List α)} (h : Interleaves results ps q) (hp : ∃ p ∈ ps, Astray good p) :
    Astray (fun os => ∀ o ∈ os, good o) q := by
  intro os hos hgood
  obtain ⟨os', rfl, hall⟩ := h.ends hos
  obtain ⟨p, hp, hastray⟩ := hp
  obtain ⟨before, after, rfl⟩ := List.append_of_mem hp
  obtain ⟨before', o, after', rfl, _, ho, _⟩ := forall₂_append_cons hall
  exact hastray o ho (hgood o (by simp))

end Activity

end DataPipeline
