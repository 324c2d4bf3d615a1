import HttpRouting.Pipeline.Handler

/-!
# Layers

A layer of middleware makes a handler out of the handler inside it.  Layers in
a list are put around a handler with the first one outermost; a chain is such a
list used as one layer.
-/

namespace HttpRouting

structure Layer where
  decorate : Handler → Handler

namespace Layer

def around (layers : List Layer) (h : Handler) : Handler :=
  layers.foldr Layer.decorate h

def chain (layers : List Layer) : Layer := ⟨around layers⟩

theorem around_cons (layer : Layer) (layers : List Layer) (h : Handler) :
    around (layer :: layers) h = layer.decorate (around layers h) := rfl

theorem around_keeps {P : Handler → Prop} {layers : List Layer}
    (hlayers : ∀ layer ∈ layers, ∀ h, P h → P (layer.decorate h)) {h : Handler} (hh : P h) :
    P (around layers h) := by
  induction layers with
  | nil => exact hh
  | cons layer rest ih =>
      exact hlayers layer List.mem_cons_self _
        (ih fun other hother => hlayers other (List.mem_cons_of_mem _ hother))

theorem around_append (outer inner : List Layer) (h : Handler) :
    around (outer ++ inner) h = around outer (around inner h) := by
  simp [around]

theorem around_chain (outer layers inner : List Layer) (h : Handler) :
    around (outer ++ chain layers :: inner) h = around (outer ++ layers ++ inner) h := by
  simp [around, chain]

end Layer

/-- The layers collected so far, the first one outermost. -/
structure LayerChain where
  layers : List Layer

namespace LayerChain

def empty : LayerChain := ⟨[]⟩

instance : Inhabited LayerChain := ⟨empty⟩

def push (c : LayerChain) (layer : Layer) : LayerChain := ⟨c.layers ++ [layer]⟩

def extend (c : LayerChain) (layers : List Layer) : LayerChain := ⟨c.layers ++ layers⟩

def size (c : LayerChain) : Nat := c.layers.length

def toLayer (c : LayerChain) : Layer := Layer.chain c.layers

end LayerChain

end HttpRouting
