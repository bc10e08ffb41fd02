import Mathlib

/-! `StrategyConfig` and its parts, as they are read from YAML, JSON or the database. A
field that Java may leave `null` is an `Option`. -/
namespace TradeStream.Configurable

/-- A `java.lang.Number` by what the code asks of it. `D` stands for the doubles. -/
structure JavaNumber (D : Type) where
  intValue : Int32
  doubleValue : D
  text : String

/-- Java's `(int)` of a double: towards zero, and no further than the int range. -/
def toInt32 (x : ℚ) : Int32 :=
  Int32.ofInt (max Int32.minValue.toInt (min Int32.maxValue.toInt (x.num.tdiv x.den)))

/-- A value of a `Map<String, Object>`. -/
inductive JavaObject (D : Type) where
  | number (n : JavaNumber D)
  | string (s : String)
  -- a boolean, a list or a map: only its `toString` is ever read
  | other (text : String)

def JavaObject.toString {D : Type} : JavaObject D → String
  | .number n => n.text
  | .string s => s
  | .other text => text

inductive ParameterType where
  | INTEGER
  | DOUBLE
  deriving DecidableEq, Repr

structure ParameterDefinition (D : Type) where
  name : Option String
  type : Option ParameterType
  min : Option (JavaNumber D)
  max : Option (JavaNumber D)
  defaultValue : Option (JavaNumber D)

structure IndicatorConfig where
  id : Option String
  type : Option String
  input : Option String
  params : Option (AList fun _ : String => Option String)

structure ConditionConfig (D : Type) where
  type : Option String
  indicator : Option String
  params : Option (AList fun _ : String => Option (JavaObject D))

structure StrategyConfig (D : Type) where
  name : Option String
  description : Option String
  complexity : Option String
  indicators : Option (List IndicatorConfig)
  entryConditions : Option (List (ConditionConfig D))
  exitConditions : Option (List (ConditionConfig D))
  parameters : Option (List (ParameterDefinition D))

/-- The value of one parameter. -/
inductive ParameterValue (D : Type) where
  | int (n : Int32)
  | double (x : D)

/-- A parameters message by the names of what it holds. For
`ConfigurableStrategyParameters` the two fields are its two maps. -/
structure ParameterValues (D : Type) where
  intValues : String → Option Int32
  doubleValues : String → Option D

namespace ParameterValues
variable {D : Type}

def empty : ParameterValues D := ⟨fun _ => none, fun _ => none⟩

def putIntValues (p : ParameterValues D) (name : String) (n : Int32) : ParameterValues D :=
  { p with intValues := Function.update p.intValues name (some n) }

def putDoubleValues (p : ParameterValues D) (name : String) (x : D) : ParameterValues D :=
  { p with doubleValues := Function.update p.doubleValues name (some x) }

def put (p : ParameterValues D) (name : String) : ParameterValue D → ParameterValues D
  | .int n => p.putIntValues name n
  | .double x => p.putDoubleValues name x

/-- The message holds the value under the name, in the map of the value's type. -/
def Holds (p : ParameterValues D) (name : String) : ParameterValue D → Prop
  | .int n => p.intValues name = some n
  | .double x => p.doubleValues name = some x

theorem holds_put (p : ParameterValues D) (name : String) (v : ParameterValue D) :
    (p.put name v).Holds name v := by
  cases v with
  | int n => exact Function.update_self name (some n) p.intValues
  | double x => exact Function.update_self name (some x) p.doubleValues

/-- A value that the message holds goes only when its name is put again. -/
theorem Holds.put {p : ParameterValues D} {name : String} {v : ParameterValue D}
    (h : p.Holds name v) {name' : String} (v' : ParameterValue D)
    (hne : name = name' → v = v') : (p.put name' v').Holds name v := by
  by_cases hname : name = name'
  · rw [hne hname, hname]
    exact holds_put p name' v'
  · cases v <;> cases v' <;>
      simpa only [Holds, ParameterValues.put, putIntValues, putDoubleValues,
        Function.update_of_ne hname] using h

/-- A message holds one value of a type under a name. -/
theorem Holds.int_eq {p : ParameterValues D} {name : String} {m n : Int32}
    (hm : p.Holds name (.int m)) (hn : p.Holds name (.int n)) : m = n :=
  Option.some.inj (hm.symm.trans hn)

theorem Holds.double_eq {p : ParameterValues D} {name : String} {x y : D}
    (hx : p.Holds name (.double x)) (hy : p.Holds name (.double y)) : x = y :=
  Option.some.inj (hx.symm.trans hy)

end ParameterValues

end TradeStream.Configurable
