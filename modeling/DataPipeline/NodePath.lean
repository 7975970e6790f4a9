namespace DataPipeline

/-- A hop from a node to one it holds. -/
inductive Hop where
  | library (index : Nat)
  | children (index : Nat)
  | child
  deriving DecidableEq, Inhabited, Repr

def Hop.text : Hop → String
  | library i => ".library[" ++ toString i ++ "]"
  | children i => ".children[" ++ toString i ++ "]"
  | child => ".child"

/-- The hops from the root, the last one first. -/
structure NodePath where
  hops : List Hop
  deriving DecidableEq, Inhabited, Repr

namespace NodePath

def root : NodePath := ⟨[]⟩

def hop (p : NodePath) (h : Hop) : NodePath := ⟨h :: p.hops⟩

/-- The text of the root, followed by the text of each hop. -/
def text (p : NodePath) : String := p.hops.foldr (fun h outer => outer ++ h.text) "$"

@[simp] theorem text_root : root.text = "$" := rfl

@[simp] theorem text_hop (p : NodePath) (h : Hop) : (p.hop h).text = p.text ++ h.text := rfl

end NodePath

end DataPipeline
