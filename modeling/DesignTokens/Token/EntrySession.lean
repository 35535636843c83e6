import DesignTokens.OrderedMap.Entries
import DesignTokens.Token.Session

/-!
# Sessions on lists of entries

What the steps of a session answer when every mapping is no more than the list of its entries.
There is no index here: look-up searches the list, and only `Entries.insert` changes it.
-/

namespace DesignTokens.Mapping

/-- The lists of entries of a session by register. -/
def EntryRegisters := String → List (String × Token)

namespace EntryRegisters

/-- Registers that were never written. -/
def initial : EntryRegisters := fun _ => []

/-- Puts a list of entries into a register. -/
def put (registers : EntryRegisters) (register : String) (entries : List (String × Token)) :
    EntryRegisters :=
  fun r => if r = register then entries else registers r

/-- Takes one step on a register. -/
def step (registers : EntryRegisters) (register : String) : Step → Answer × EntryRegisters
  | .create => (.done, registers.put register [])
  | .createWithCapacity _ => (.done, registers.put register [])
  | .single key value => (.done, registers.put register [(key, value)])
  | .collect entries => (.done, registers.put register (Entries.insertMany [] entries))
  | .ofMembers members =>
    let entries := members.map fun member => (member.1, Token.ofJson member.2)
    (.done, registers.put register (Entries.insertMany [] entries))
  | .insert key value =>
    (.value ((registers register).lookup key),
      registers.put register (Entries.insert key value (registers register)))
  | .merge source =>
    (.done, registers.put register (Entries.insertMany (registers register) (registers source)))
  | .extend entries =>
    (.done, registers.put register (Entries.insertMany (registers register) entries))
  | .get key => (.value ((registers register).lookup key), registers)
  | .assign key value =>
    match (registers register).lookup key with
    | some old =>
      (.value (some old), registers.put register (Entries.insert key value (registers register)))
    | none => (.value none, registers)
  | .contains key => (.truth ((registers register).lookup key).isSome, registers)
  | .size => (.count (registers register).length, registers)
  | .isEmpty => (.truth (registers register).isEmpty, registers)
  | .keys => (.keys ((registers register).map (·.1)), registers)
  | .values => (.values ((registers register).map (·.2)), registers)
  | .entries => (.entries (registers register), registers)
  | .drain => (.entries (registers register), registers.put register [])
  | .copy source => (.done, registers.put register (registers source))
  | .equals other => (.truth (registers register == registers other), registers)

/-- Runs a session, and returns for every step its answer and the entries then in its
register. -/
def run (registers : EntryRegisters) :
    List (String × Step) → List (Answer × List (String × Token))
  | [] => []
  | (register, step) :: steps =>
    let (answer, after) := registers.step register step
    (answer, after register) :: after.run steps

end EntryRegisters

end DesignTokens.Mapping
