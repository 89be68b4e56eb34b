import NodeScope.Lib.Check
import NodeScope.Lib.Text
import NodeScope.Lib.Time
import NodeScope.Lib.Float64

/-!
# Metric values and their validation

`MetricQuality` is a string type of the program with six named values; any
other text is kept, because the validator is what rejects it. Two of the six
forbid a value and the other four demand one.
-/

namespace NodeScope.Domain

open Lib Lib.Check Lib.Text Lib.Time

/-- The texts of the six named qualities. -/
def qualityNames : List String :=
  ["fresh", "stale", "unavailable", "unsupported", "estimated", "experimental"]

inductive MetricQuality where
  | fresh
  | stale
  | unavailable
  | unsupported
  | estimated
  | experimental
  | unknown (text : String) (h : text ∉ qualityNames)
deriving DecidableEq

/-- The text that is stored and sent. -/
def MetricQuality.text : MetricQuality → String
  | .fresh => "fresh"
  | .stale => "stale"
  | .unavailable => "unavailable"
  | .unsupported => "unsupported"
  | .estimated => "estimated"
  | .experimental => "experimental"
  | .unknown text _ => text

def MetricQuality.valid : MetricQuality → Bool
  | .unknown _ _ => false
  | _ => true

structure MetricValue where
  name : String
  unit : String
  value : Option Float64
  quality : MetricQuality
  source : String
  semantics : String
  observedAt : Int
deriving DecidableEq

/-- The errors of `MetricValue.Validate`, in the order of its checks. -/
inductive MetricError where
  | nameRequired
  | invalidQuality (name : String) (quality : MetricQuality)
  | sourceRequired (name : String)
  | semanticsRequired (name : String)
  | observedAtRequired (name : String)
  | unexpectedValue (name : String) (quality : MetricQuality)
  | valueRequired (name : String) (quality : MetricQuality)
deriving DecidableEq

/-- The qualities that must not carry a value. -/
def MetricQuality.withoutValue (q : MetricQuality) : Bool :=
  q == .unavailable || q == .unsupported

/-- The qualities that must carry a value. -/
def MetricQuality.withValue (q : MetricQuality) : Bool :=
  q == .fresh || q == .stale || q == .estimated || q == .experimental

def MetricValue.validate (m : MetricValue) : Except MetricError Unit := do
  failIf (trimSpace m.name == "") .nameRequired
  failIf (!m.quality.valid) (.invalidQuality m.name m.quality)
  failIf (trimSpace m.source == "") (.sourceRequired m.name)
  failIf (trimSpace m.semantics == "") (.semanticsRequired m.name)
  failIf (isZero m.observedAt) (.observedAtRequired m.name)
  failIf (m.quality.withoutValue && m.value.isSome) (.unexpectedValue m.name m.quality)
  failIf (m.quality.withValue && m.value.isNone) (.valueRequired m.name m.quality)

/-- What an accepted metric value satisfies. -/
theorem MetricValue.validate_eq_ok {m : MetricValue} {u : Unit} :
    m.validate = .ok u ↔
      trimSpace m.name ≠ "" ∧ m.quality.valid = true ∧ trimSpace m.source ≠ "" ∧
      trimSpace m.semantics ≠ "" ∧ isZero m.observedAt = false ∧
      (m.quality.withoutValue = true → m.value = none) ∧
      (m.quality.withValue = true → m.value.isSome = true) := by
  simp only [MetricValue.validate, unit_bind_eq_ok, failIf_eq_ok]
  cases m.value <;> simp

/-- A valid quality either forbids or demands a value. -/
theorem MetricQuality.withValue_eq_not {q : MetricQuality} (h : q.valid = true) :
    q.withValue = !q.withoutValue := by
  cases q <;> first | rfl | simp [MetricQuality.valid] at h

end NodeScope.Domain
