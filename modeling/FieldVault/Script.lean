/-
Scripts: units of work written down as data.

A script is a list of steps to be run in one unit of work. Each step yields a result. A step that
fails ends the script with its failure, unless it is marked to be tolerated. At its end a script
may still be made to fail, or to crash, which is how hosts rehearse either.
-/
import FieldVault.Migration

set_option autoImplicit false

namespace FieldVault

/-- The shadow record a step works on. -/
inductive ShadowOperand where
  /-- A given record. -/
  | given (shadow : Shadow)
  /-- A new record with an id of its own. -/
  | fresh (owner : OwnerId) (field : FieldName) (ciphertext : String)

/-- A step of a script. -/
inductive Step where
  | loadOwner (id : OwnerId)
  | writeField (id : OwnerId) (field : FieldName) (value : Option String)
  | findShadow (owner : OwnerId) (field : FieldName)
  | shadowsOf (owner : OwnerId)
  | persistShadow (shadow : ShadowOperand)
  | removeShadow (shadow : ShadowOperand)
  /-- Finds the record of a field, or makes one; then puts a ciphertext into it, if one is given. -/
  | shadowRecord (owner : OwnerId) (field : FieldName) (create : Bool) (ciphertext : Option String)
  | encryptOwner (id : OwnerId)
  | decryptOwner (id : OwnerId)

/-- What a step yields. -/
inductive StepResult where
  | done
  | owner (found : Option Owner)
  | shadow (found : Option Shadow)
  | shadows (found : List Shadow)
  | report (report : Report)

/-- How a script ends once its steps are through. -/
inductive ScriptEnd where
  | commit
  | fail
  | crash
deriving DecidableEq

/-- Steps, each with the mark that its failure is tolerated, and an end. -/
structure Script where
  steps : List (Step × Bool)
  ending : ScriptEnd

namespace Work

/-- The record that an operand stands for. -/
def shadowOperand : ShadowOperand → Work Shadow
  | .given shadow => return shadow
  | .fresh owner field ciphertext => do
    return { (← newShadow owner field) with ciphertext }

/-- The record of a field, or a new one if that is asked for. -/
def shadowRecord (owner : OwnerId) (field : FieldName) (create : Bool) : Work (Option Shadow) := do
  if create then return some (← shadowOrNew owner field)
  else findShadow owner field

/-- Runs one step. -/
def runStep : Step → Work StepResult
  | .loadOwner id => return .owner (← loadOwner id)
  | .writeField id field value => do
    writeField id field value
    return .done
  | .findShadow owner field => return .shadow (← findShadow owner field)
  | .shadowsOf owner => return .shadows (← shadowsOf owner)
  | .persistShadow operand => do
    persistShadow (← shadowOperand operand)
    return .done
  | .removeShadow operand => do
    removeShadow (← shadowOperand operand)
    return .done
  | .shadowRecord owner field create ciphertext => do
    match ← shadowRecord owner field create, ciphertext with
    | some shadow, some ciphertext => do
      let shadow := { shadow with ciphertext }
      persistShadow shadow
      return .shadow (some shadow)
    | found, _ => return .shadow found
  | .encryptOwner id => return .report (← encryptOwnerIn id)
  | .decryptOwner id => return .report (← decryptOwnerIn id)

/-- Runs the steps of a script up to the first failure that is not tolerated; answers the results
so far and that failure. -/
def runSteps : List (Step × Bool) → Work (List (Except Error StepResult) × Option Error)
  | [] => return ([], none)
  | (step, tolerated) :: steps => do
    match ← outcome (runStep step) with
    | .error e =>
      if tolerated then
        let (results, failure) ← runSteps steps
        return (.error e :: results, failure)
      else return ([.error e], some e)
    | .ok result => do
      let (results, failure) ← runSteps steps
      return (.ok result :: results, failure)

end Work

/-- How a script came out. -/
inductive ScriptOutcome where
  /-- The unit of work ended, with the failure that undid it, if any. -/
  | ended (results : List (Except Error StepResult)) (failure : Option Error)
  /-- The unit of work crashed. -/
  | crashed

namespace Vault

/-- The failure of a script that is made to fail. -/
def scriptFailure : Error := .config "simulated"

/-- Runs a script in a unit of work. A crash undoes it and poisons the store. -/
def runScript (script : Script) (v : Vault) : ScriptOutcome × Vault :=
  match Work.begin v with
  | .error e v' => (.ended [] (some e), v')
  | .ok _ v' =>
    match Work.runSteps script.steps v' with
    | .error e v'' => (.ended [] (some e), { v'' with store := v.store })
    | .ok (results, some e) v'' => (.ended results (some e), { v'' with store := v.store })
    | .ok (results, none) v'' =>
      match script.ending with
      | .commit => (.ended results none, v'')
      | .fail => (.ended results (some scriptFailure), { v'' with store := v.store })
      | .crash => (.crashed, { v'' with store := v.store, poisoned := true })

end Vault

end FieldVault
