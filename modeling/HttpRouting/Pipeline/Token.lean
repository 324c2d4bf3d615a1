/-!
# Cancellation tokens

A token belongs to a scope of a request.  A scope inside another one has a token
of its own; cancelling a token cancels those of the scopes inside it, and never
one further out.
-/

namespace HttpRouting

/-- A token is known by the numbers of its scope and of the scopes around it,
its own first. -/
structure Token where
  own : Nat
  enclosing : List Nat
  deriving DecidableEq, Repr

namespace Token

def root : Token := ⟨0, []⟩

def lineage (t : Token) : List Nat := t.own :: t.enclosing

end Token

structure TokenLedger where
  given : Nat
  cancelled : List Nat
  deriving DecidableEq, Repr

namespace TokenLedger

def start : TokenLedger := ⟨1, []⟩

def child (l : TokenLedger) (parent : Token) : Token × TokenLedger :=
  (⟨l.given, parent.lineage⟩, { l with given := l.given + 1 })

def cancel (l : TokenLedger) (t : Token) : TokenLedger :=
  { l with cancelled := t.own :: l.cancelled }

def isCancelled (l : TokenLedger) (t : Token) : Bool :=
  t.lineage.any l.cancelled.contains

theorem isCancelled_cancel (l : TokenLedger) (t u : Token) :
    (l.cancel t).isCancelled u = (u.lineage.contains t.own || l.isCancelled u) := by
  simp only [isCancelled, cancel]
  induction u.lineage with
  | nil => rfl
  | cons n rest ih =>
      simp only [List.any_cons, List.contains_cons, ih]
      cases h : n == t.own <;> cases h' : t.own == n <;>
        simp_all [Bool.or_left_comm]

end TokenLedger

end HttpRouting
