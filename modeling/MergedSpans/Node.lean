import MergedSpans.Span.Basic

/-! # Nodes and their ids

A node keeps one span and its links to the neighbours. An id names a node inside one store: the
tier and the slot it lives in, and the slot's generation when the node was put there. A slot's
generation moves on whenever its node is released, so an id that is kept too long names nothing.

* `Tier`, `NodeId` — where a node lives.
* `Node` — a span with its links.
-/

namespace MergedSpans

/-- The two kinds of slots. -/
inductive Tier where
  /-- A slot of a pool's fixed slab. -/
  | slab
  /-- A slot of a table that grows on demand. -/
  | heap
  deriving DecidableEq, Inhabited

/-- The name of a tier in messages. -/
def Tier.text : Tier → String
  | .slab => "Pool"
  | .heap => "Heap"

/-- The name of a node inside one store. -/
structure NodeId where
  /-- The kind of slot that the node lives in. -/
  tier : Tier
  /-- The slot's position in its tier. -/
  index : Nat
  /-- The slot's generation when the node was put there. -/
  generation : UInt32
  deriving DecidableEq, Inhabited

namespace NodeId

/-- The id in messages. -/
def text (id : NodeId) : String :=
  Text.wrapper "NodeId"
    (id.tier.text ++ ", idx=" ++ Text.decimal id.index
      ++ ", gen=" ++ Text.decimal id.generation.toNat)

/-- The id in diagnostics. -/
def debugText (id : NodeId) : String :=
  Text.record "NodeId"
    [("tier", id.tier.text), ("index", Text.decimal id.index),
      ("generation", Text.decimal id.generation.toNat)]

end NodeId

/-- One tracked span, linked to its neighbours in ascending order. -/
structure Node where
  /-- The span that the node tracks. -/
  span : Span
  /-- The node before it, if any. -/
  prev : Option NodeId
  /-- The node after it, if any. -/
  next : Option NodeId
  deriving DecidableEq, Inhabited

namespace Node

/-- A node without neighbours. -/
def unlinked (span : Span) : Node := ⟨span, none, none⟩

/-- The node in diagnostics. -/
def debugText (node : Node) : String :=
  Text.record "Node"
    [("span", node.span.debugText), ("prev", Text.optional (node.prev.map NodeId.debugText)),
      ("next", Text.optional (node.next.map NodeId.debugText))]

end Node

end MergedSpans
