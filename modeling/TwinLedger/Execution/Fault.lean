import TwinLedger.Execution.Basic

/-!
# Faulty executors

Executors with a known fault, to see that the cross-check refuses them. A fault disturbs what
another executor leaves behind: its result, the world, or both.
-/

namespace TwinLedger

/-- One way to go wrong. -/
inductive Fault where
  /-- Refuses the message without running it. -/
  | reject
  /-- Adds a little refund. -/
  | refund
  /-- Touches a bystander. -/
  | touch
  /-- Takes an error for another. -/
  | error
  /-- Takes an error for a success. -/
  | accept
  /-- Reports one unit of gas too much. -/
  | gas
  /-- Takes success for failure and failure for success. -/
  | fail
  /-- Gives a bystander some balance. -/
  | state
  /-- Changes the nonce, the code or a slot of the coinbase. -/
  | nonce
  | code
  | storage
  /-- Emits a log for the transaction. -/
  | emit
  /-- Emits a log in the name of another transaction. -/
  | log
  /-- Leaves the stamp with another block number. -/
  | context
  deriving DecidableEq

namespace Fault

/-- An account that has nothing to do with any message. -/
def bystander : Address := .replicate 0x55

/-- The name of no transaction. -/
def foreignTransaction : Hash := .replicate 0x77

/-- The execution with its world changed. -/
def onWorld (x : Execution) (f : World → World) : Execution := { x with world := f x.world }

/-- Disturbs an execution that reported a result. -/
def disturbSuccess (f : Fault) (ctx : BlockContext) (r : ExecutionResult) (x : Execution) :
    Checked Execution :=
  let stamp := x.world.stamp
  match f with
  | .gas => do
    let gasUsed ← r.gasUsed.add 1
    .ok { x with result := .ok { r with gasUsed } }
  | .fail => .ok { x with result := .ok { r with failed := !r.failed } }
  | .state => .ok (onWorld x (·.addBalance bystander 1))
  | .nonce => .ok (onWorld x (·.setNonce ctx.coinbase 9))
  | .code => .ok (onWorld x (·.setCode ctx.coinbase [0x01, 0x02]))
  | .storage => .ok (onWorld x (·.setStorage ctx.coinbase 1 2))
  | .emit => .ok (onWorld x (·.addLog { address := bystander, data := [0xab] }))
  | .log =>
    .ok <| onWorld x fun w =>
      ((w.prepare { stamp with txHash := foreignTransaction, blockNumber := ctx.number }).addLog
        { address := bystander, topics := [.replicate 0x66] }).prepare
          { stamp with blockNumber := ctx.number }
  | .context => do
    let blockNumber ← ctx.number.add 1
    .ok (onWorld x (·.prepare { stamp with blockNumber }))
  | _ => .ok x

/-- Disturbs an execution. -/
def disturb (ctx : BlockContext) (x : Execution) (f : Fault) : Checked Execution :=
  match f, x.result with
  | .refund, _ => .ok (onWorld x (·.addRefund 7))
  | .touch, _ => .ok (onWorld x (·.touch bystander))
  | .error, .error _ => .ok { x with result := .error .gasOverflow }
  | .accept, .error _ => .ok { x with result := .ok ⟨[], 0, false⟩ }
  | f, .ok r => disturbSuccess f ctx r x
  | _, .error _ => .ok x

/-- The executor with faults, of which each disturbs what the one before it left. -/
def inject (faults : List Fault) (executor : Executor) : Executor := fun ctx m w pool =>
  if faults.contains .reject then .ok ⟨.error .gasOverflow, w, pool⟩
  else do
    let x ← executor ctx m w pool
    faults.foldlM (disturb ctx) x

end Fault

end TwinLedger
