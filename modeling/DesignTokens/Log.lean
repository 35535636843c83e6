import DesignTokens.Kind
import DesignTokens.Text.Escaped

/-!
# The log of a conversion

Conversion leaves a record for every rule it converts and for every sheet it merges. A
computation that writes records is a value together with its log, so what is written, and in
which order, is part of its result.

* `Record`, `Record.line`: the records and their lines.
* `Logged`: a value and the records written on the way to it.
-/

namespace DesignTokens

/-- A record of work done. -/
inductive Record where
  /-- The conversion of a rule begins: its kind, the name it is given, and whether it is part of
  another rule. -/
  | converting (kind : Kind) (name : String) (nested : Bool)
  /-- This many fragments, one of each variable, were merged into a root with this many
  entries. -/
  | merged (fragments entries : Nat)
deriving DecidableEq, Repr

namespace Record

/-- How much a record matters. -/
def level : Record → String
  | .converting .. => "TRACE"
  | .merged .. => "DEBUG"

/-- The wording of a record. -/
def message : Record → String
  | .converting kind name nested =>
    "converting " ++ kind.tag ++ " (name: " ++ Text.escaped name ++ ", sub-prop: " ++
      (if nested then "true" else "false") ++ ")"
  | .merged fragments entries =>
    "merged " ++ Nat.repr fragments ++ " variables into " ++ Nat.repr entries ++ " tokens"

/-- The line of a record in the log. -/
def line (record : Record) : String :=
  record.level ++ " " ++ record.message

end Record

/-- A value and the records written on the way to it. -/
structure Logged (α : Type) where
  value : α
  log : List Record

namespace Logged

/-- Writes a record. -/
def write (record : Record) : Logged Unit :=
  ⟨(), [record]⟩

instance : Monad Logged where
  pure a := ⟨a, []⟩
  bind x f := ⟨(f x.value).value, x.log ++ (f x.value).log⟩

variable {α β : Type}

@[simp]
theorem value_pure (a : α) : (pure a : Logged α).value = a := rfl

@[simp]
theorem log_pure (a : α) : (pure a : Logged α).log = [] := rfl

@[simp]
theorem value_bind (x : Logged α) (f : α → Logged β) : (x >>= f).value = (f x.value).value := rfl

@[simp]
theorem log_bind (x : Logged α) (f : α → Logged β) :
    (x >>= f).log = x.log ++ (f x.value).log := rfl

@[simp]
theorem value_map (f : α → β) (x : Logged α) : (f <$> x).value = f x.value := rfl

@[simp]
theorem log_map (f : α → β) (x : Logged α) : (f <$> x).log = x.log :=
  List.append_nil _

@[simp]
theorem log_write (record : Record) : (write record).log = [record] := rfl

instance : LawfulMonad Logged :=
  LawfulMonad.mk' Logged (fun _ => by simp [Functor.map]) (fun _ _ => by simp [bind, pure])
    (fun _ _ _ => by simp [bind])

end Logged

end DesignTokens
