import DataPipeline.Proofs.Build.Sequence
import DataPipeline.Proofs.Outcome.Written
import DataPipeline.Node.Execute
import DataPipeline.Plugin.Builtin
import DataPipeline.Schema.Load

namespace DataPipeline

open Document

namespace Schema

/-- A synchronizer with a number of others inside it, one in another. -/
def nested : Nat → Schema
  | 0 => { component := some "synchronizer" }
  | n + 1 => { component := some "synchronizer", children := [nested n] }

theorem toJson_nested_zero :
    (nested 0).toJson = .object [("component", .string "synchronizer")] := rfl

theorem toJson_nested_succ (n : Nat) : (nested (n + 1)).toJson = .object
    [("children", .array [(nested n).toJson]), ("component", .string "synchronizer")] := by
  have hlt : "children" < "component" := by decide +kernel
  rw [nested, toJson, toJsonList, toJsonChild]
  simp only [Option.map_some, Option.map_none, Option.toList_some, Option.toList_none,
    List.append_nil, List.cons_append, List.nil_append, Json.obj, Fields.ofList,
    List.foldl_cons, List.foldl_nil, Fields.insert, hlt, ↓reduceIte]

theorem depth_toJson_nested (n : Nat) : (nested n).toJson.depth = 2 * n + 1 := by
  induction n with
  | zero =>
    rw [toJson_nested_zero]
    rfl
  | succ n ih =>
    rw [toJson_nested_succ]
    simp only [Json.depth, Json.depthFields, Json.depthItems, ih]
    omega

theorem numberless_toJson_nested (n : Nat) : Json.numberless (nested n).toJson = true := by
  induction n with
  | zero =>
    rw [toJson_nested_zero]
    rfl
  | succ n ih =>
    rw [toJson_nested_succ]
    simp [Json.numberless, Json.numberlessFields, Json.numberlessItems, ih]

theorem yields_readOptionText (r : Reading) (s : String) {d : Doc}
    (hd : Document.Holds d (.string s)) :
    Yields (Reading.readOption (Reading.readText "a string") r d) (some s)
      ((Json.string s).depth ≤ r.depth) := by
  cases hd
  exact (Yields.of_eq rfl).congr (iff_of_true trivial (Nat.zero_le _))

theorem yields_readWithin_nested (n : Nat) {fuel : Nat} {r : Reading} {d : Doc}
    (hfuel : r.depth ≤ fuel) (hd : Document.Holds d (nested n).toJson) :
    Yields (readWithin fuel r d) (nested n) ((nested n).toJson.depth ≤ r.depth) := by
  induction n generalizing fuel r d with
  | zero =>
    cases fuel with
    | zero => exact .inr ⟨by rw [depth_toJson_nested]; omega, _, rfl, rfl⟩
    | succ fuel =>
      have hreads :
          (shape (readWithin fuel)).Reads (r.depth - 1) (shape (readWithin fuel)).start []
          [("component", .string "synchronizer")] (nested 0) ["component"] := by
        apply Shape.Reads.field (by simp [shape]) (by decide) (fun r d => rfl)
        · intro r d _ hd
          exact yields_readOptionText r "synchronizer" hd
        exact .nil _ _
      rw [toJson_nested_zero] at hd ⊢
      exact hreads.yields_read rfl hd
  | succ n ih =>
    cases fuel with
    | zero => exact .inr ⟨by rw [depth_toJson_nested]; omega, _, rfl, rfl⟩
    | succ fuel =>
      have hreads :
          (shape (readWithin fuel)).Reads (r.depth - 1) (shape (readWithin fuel)).start []
          [("children", .array ([nested n].map toJson)), ("component", .string "synchronizer")]
          (nested (n + 1)) ["component", "children"] := by
        apply Shape.Reads.field (by simp [shape]) (by decide) (fun r d => rfl)
        · intro r' d hr' hd
          apply yields_readList _ hd
          intro s hs r'' d hr'' hd
          cases List.mem_singleton.1 hs
          exact ih (by omega) hd
        apply Shape.Reads.field (by simp [shape]) (by decide) (fun r d => rfl)
        · intro r d _ hd
          exact yields_readOptionText r "synchronizer" hd
        exact .nil _ _
      rw [toJson_nested_succ] at hd ⊢
      exact hreads.yields_read rfl hd

theorem ofJsonText_pretty {s : Schema} (hs : Json.numberless s.toJson = true)
    (hdepth : s.toJson.depth ≤ 127)
    (hread : ∀ (r : Reading) (d : Doc), Document.Holds d s.toJson →
      Yields (readWithin (r.depth + 1) r d) s (s.toJson.depth ≤ r.depth)) :
    ofJsonText s.toJson.pretty = .ok s := by
  obtain ⟨d, htext, hd⟩ := Document.ofJsonText_pretty hs
  rw [ofJsonText, readJsonText, htext]
  have hdoc : read { format := .json, anchors := fun _ => none, depth := 127 } d = .ok s :=
    (hread _ d hd).eq_ok_iff.2 hdepth
  simp only [hdoc]
  rfl

theorem ofJsonText_nested {n : Nat} (hn : n ≤ 63) :
    ofJsonText (nested n).toJson.pretty = .ok (nested n) := by
  apply ofJsonText_pretty (numberless_toJson_nested n)
  · rw [depth_toJson_nested]
    omega
  · intro r d hd
    exact yields_readWithin_nested n (Nat.le_succ _) hd

end Schema

namespace Node

/-- The pipeline of nested synchronizers. -/
def nested : Nat → Node
  | 0 => .synchronizer [] {}
  | n + 1 => .synchronizer [nested n] {}

end Node

theorem Build.node_nested (n : Nat) (context : BuildContext) (path : NodePath) :
    (node Registry.builtin (Schema.nested n) context path).result = .ok (Node.nested n) := by
  induction n generalizing context path with
  | zero => rfl
  | succ n ih =>
    rw [node_ok]
    refine ⟨.synchronizer [Schema.nested n] {}, rfl, [], rfl, ?_⟩
    have hnodes : (childNodes Registry.builtin [Schema.nested n]
        (context.derive (Schema.nested (n + 1)) []) path 0).result = .ok [Node.nested n] := by
      rw [childNodes, Traced.bind_ok]
      refine ⟨Node.nested n, ih _ _, ?_⟩
      rfl
    rw [rest, Traced.bind_ok]
    exact ⟨_, hnodes, rfl⟩

/-- What is reported of nested synchronizers. -/
def Outcome.nested : Nat → Outcome
  | 0 => .aggregate ⟨.synchronizer, "synchronizer"⟩ []
  | n + 1 => .aggregate ⟨.synchronizer, "synchronizer"⟩ [nested n]

theorem Node.execute_nested (n : Nat) (settings : RunSettings) (ctx : RunContext) :
    (nested n).execute settings ctx = .done (Outcome.nested n) := by
  induction n with
  | zero =>
    rw [nested, execute_synchronizer, List.map_nil, Activity.fanOut]
    change (Activity.advance _ 0 0 [] [] []).bind _ = _
    rw [Activity.advance]
    rfl
  | succ n ih =>
    rw [nested, execute_synchronizer, List.map_singleton, ih, Activity.fanOut]
    change (Activity.advance _ 0 0 [] [⟨0, none, .done (Outcome.nested n)⟩] []).bind _ = _
    rw [Activity.advance, Activity.advance]
    rfl

theorem depthItems_texts (texts : List String) : Json.depthItems (texts.map .string) = 0 := by
  induction texts with
  | nil => rfl
  | cons text texts ih =>
    rw [List.map_cons, Json.depthItems, ih]
    rfl

theorem Outcome.depth_toJson_nested (n : Nat) : (nested n).toJson.depth = 2 * n + 2 := by
  induction n with
  | zero => rfl
  | succ n ih =>
    change (Json.object [_, _, _, _, ("children", .array [(nested n).toJson])]).depth = _
    simp only [Json.depth, Json.depthFields, Json.depthItems, ih]
    have hstage : (⟨.synchronizer, "synchronizer"⟩ : Descriptor).toJson.depth = 1 := rfl
    rw [hstage, depthItems_texts]
    omega

end DataPipeline
