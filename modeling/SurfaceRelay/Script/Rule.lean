import SurfaceRelay.Registers

/-! Scripted failures.

A rule waits for calls of one name. It lets a number of them pass, then fires a
number of times or for ever. A table of rules has at most one rule for each name. -/
namespace SurfaceRelay.Script

structure Rule (ε : Type) where
  /-- Calls still to be let pass. -/
  skip : Nat
  /-- Times still to fire, without a number for ever. -/
  times : Option Nat
  effect : ε

/-- What the rule does to the next call, and the rule after it. -/
def Rule.next {ε : Type} (r : Rule ε) : Option ε × Rule ε :=
  match r.skip, r.times with
  | skip + 1, _ => (none, { r with skip })
  | 0, some 0 => (none, r)
  | 0, some (times + 1) => (some r.effect, { r with times := some times })
  | 0, none => (some r.effect, r)

/-- The rules in force, by the name of the call. -/
abbrev Rules (ε : Type) := Registers (Rule ε)

/-- What the rules do to a call of this name, and the rules after it. -/
def Rules.next {ε : Type} (rules : Rules ε) (call : String) : Option ε × Rules ε :=
  match rules.get? call with
  | none => (none, rules)
  | some r => (r.next.1, rules.put call r.next.2)

end SurfaceRelay.Script
