import TaggedSchema.Catalog

/-!
# Feature gates

A view of the gates says which are enabled. Views are taken from snapshots, in which a gate that
is not listed is disabled. A registry lists the gates that exist.
-/

namespace TaggedSchema

/-- Which gates are enabled. -/
abbrev GateView := String → Bool

abbrev GateSnapshot := Catalog (String × Bool) Prod.fst

def GateSnapshot.isEnabled (snapshot : GateSnapshot) : GateView := fun gate =>
  ((snapshot.get? gate).map Prod.snd).getD false

abbrev GateRegistry := Catalog String id

/-- Whether a condition asks for its gate to be enabled or disabled. -/
inductive Polarity where
  | enabled
  | disabled
  deriving DecidableEq

structure Condition where
  gate : String
  polarity : Polarity
  deriving DecidableEq

def Condition.holds (condition : Condition) (gates : GateView) : Bool :=
  match condition.polarity with
  | .enabled => gates condition.gate
  | .disabled => !gates condition.gate

end TaggedSchema
