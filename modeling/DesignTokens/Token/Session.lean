import DesignTokens.Token.Json

/-!
# Sessions on mappings

A session works on any number of mappings, each in a register of its own. Every step names the
register it works on; a register that was never written holds the empty mapping.

* `Mapping.Step`: the steps.
* `Mapping.Answer`: what a step answers.
* `Mapping.Registers.step`, `Mapping.Registers.run`: one step and a whole session.
-/

namespace DesignTokens.Mapping

/-- A step on the mapping in a register. -/
inductive Step where
  /-- Puts the empty mapping into the register. -/
  | create
  | createWithCapacity (capacity : Nat)
  | single (key : String) (value : Token)
  | collect (entries : List (String × Token))
  | ofMembers (members : List (String × Json))
  | insert (key : String) (value : Token)
  /-- Writes the entries of the mapping in another register, or in the same. -/
  | merge (source : String)
  | extend (entries : List (String × Token))
  | get (key : String)
  /-- Replaces the value at a key, if the key is there. -/
  | assign (key : String) (value : Token)
  | contains (key : String)
  | size
  | isEmpty
  | keys
  | values
  | entries
  /-- Takes all entries out. -/
  | drain
  /-- Puts a copy of another mapping into the register. -/
  | copy (source : String)
  | equals (other : String)

/-- The answer to a step. -/
inductive Answer where
  | done
  /-- A value that was found or replaced, if there was one. -/
  | value (value : Option Token)
  | truth (value : Bool)
  | count (value : Nat)
  | keys (keys : List String)
  | values (values : List Token)
  | entries (entries : List (String × Token))

/-- The mappings of a session by register. -/
def Registers := String → Mapping

namespace Registers

/-- Registers that were never written. -/
def initial : Registers := fun _ => ∅

/-- Puts a mapping into a register. -/
def put (registers : Registers) (register : String) (entries : Mapping) : Registers :=
  fun r => if r = register then entries else registers r

/-- Takes one step on a register. -/
def step (registers : Registers) (register : String) : Step → Answer × Registers
  | .create => (.done, registers.put register ∅)
  | .createWithCapacity capacity => (.done, registers.put register (.emptyWithCapacity capacity))
  | .single key value => (.done, registers.put register (.singleton key value))
  | .collect entries => (.done, registers.put register (.ofList entries))
  | .ofMembers members => (.done, registers.put register (Mapping.ofMembers members))
  | .insert key value =>
    let (replaced, changed) := (registers register).getThenInsert? key value
    (.value replaced, registers.put register changed)
  | .merge source => (.done, registers.put register ((registers register).merge (registers source)))
  | .extend entries => (.done, registers.put register ((registers register).insertMany entries))
  | .get key => (.value ((registers register).get? key), registers)
  | .assign key value =>
    match (registers register).replace? key value with
    | some (replaced, changed) => (.value (some replaced), registers.put register changed)
    | none => (.value none, registers)
  | .contains key => (.truth ((registers register).contains key), registers)
  | .size => (.count (registers register).size, registers)
  | .isEmpty => (.truth (registers register).isEmpty, registers)
  | .keys => (.keys (registers register).keys, registers)
  | .values => (.values (registers register).values, registers)
  | .entries => (.entries (registers register).toList, registers)
  | .drain => (.entries (registers register).toList, registers.put register ∅)
  | .copy source => (.done, registers.put register (registers source))
  | .equals other => (.truth (registers register == registers other), registers)

/-- Runs a session, and returns for every step its answer and the mapping then in its
register. -/
def run (registers : Registers) : List (String × Step) → List (Answer × Mapping)
  | [] => []
  | (register, step) :: steps =>
    let (answer, after) := registers.step register step
    (answer, after register) :: after.run steps

end Registers

end DesignTokens.Mapping
