import TwinLedger.Execution.Basic
import TwinLedger.Execution.Precompile
import TwinLedger.Execution.WriteSet
import TwinLedger.Program.Decoder

/-!
# The executor that buffers its writes

A message is applied in three phases. The pre-charge checks it without writing, then buys the gas
and raises the nonce of the sender. The call or creation runs against a write set; a program is
decoded whole before its first instruction runs. The charge refunds gas and pays the fees, after
the write set has been committed if the call succeeded.
-/

namespace TwinLedger.Buffered

/-- Runs the instructions of a program against a write set over the given world. -/
def execute (base : World) (address : Address) (byzantium : Bool) :
    List Instruction → U64 → WriteSet → Checked (Frame WriteSet)
  | [], gas, ws => .ok (.success ws gas [])
  | .stop :: _, gas, ws =>
    match gas.sub? Gas.bareInstruction with
    | none => .ok (.failure ws gas .exceptional)
    | some left => .ok (.success ws left [])
  | .store key value :: rest, gas, ws => do
    let charge := Gas.storageCharge (ws.storage base address key).isZero value.isZero
    let cost ← Gas.instruction charge.cost
    match gas.sub? cost with
    | none => .ok (.failure ws gas .exceptional)
    | some left =>
      execute base address byzantium rest left
        ((ws.setStorage address key value).addRefund charge.refund)
  | .log topics data :: rest, gas, ws => do
    let logCost ← Gas.logCost topics.length data.length
    let cost ← Gas.instruction logCost
    match gas.sub? cost with
    | none => .ok (.failure ws gas .exceptional)
    | some left =>
      execute base address byzantium rest left (ws.addLog { address, topics, data })
  | .ret data :: _, gas, ws =>
    match gas.sub? Gas.bareInstruction with
    | none => .ok (.failure ws gas .exceptional)
    | some left => .ok (.success ws left data)
  | .revert :: _, gas, ws =>
    if byzantium then
      match gas.sub? Gas.bareInstruction with
      | none => .ok (.failure ws gas .exceptional)
      | some left => .ok (.failure ws left .revert)
    else .ok (.failure ws gas .exceptional)

/-- Decodes a program and runs it. -/
def run (base : World) (address : Address) (byzantium : Bool) (code : Bytes) (gas : U64)
    (ws : WriteSet) : Checked (Frame WriteSet) :=
  match decode code with
  | .error _ => .ok (.failure ws gas .exceptional)
  | .ok program => execute base address byzantium program gas ws

/-- A call of an account. -/
def call (ctx : BlockContext) (m : Message) (target : Address) (base : World) (gas : U64) :
    Checked (Frame WriteSet) :=
  let start : WriteSet := {}
  let precompile := Precompile.at? target
  if start.exists? base target then
    enter precompile (start.transfer base m.sender target m.value)
  else if precompile.isNone && ctx.rules.eip158 && m.value == 0 then
    .ok (.success start gas [])
  else
    enter precompile ((start.createAccount target).transfer base m.sender target m.value)
where
  /-- The call once the account is there and the value moved. -/
  enter (precompile : Option Precompile) (ws : WriteSet) : Checked (Frame WriteSet) :=
    match precompile with
    | some p => do
      let cost ← p.gasCost m.data
      match gas.sub? cost with
      | none => .ok (.failure ws gas .exceptional)
      | some left => .ok (.success ws left (p.run m.data))
    | none => run base target ctx.rules.byzantium (ws.code base target) gas ws

/-- The creation of a contract by a sender whose nonce was the given one. -/
def create (ctx : BlockContext) (m : Message) (senderNonce : U64) (base : World) (gas : U64) :
    Checked (Frame WriteSet) :=
  let start : WriteSet := {}
  let address := Address.ofCreation m.sender senderNonce
  if start.nonce base address != 0 || !(start.code base address).isEmpty then
    .ok (.failure start gas .exceptional)
  else
    let created := start.createAccount address
    let started := if ctx.rules.eip158 then created.setNonce address 1 else created
    let paid := started.transfer base m.sender address m.value
    if ctx.rules.eip158 && decide (Gas.maxCodeSize < m.data.length) then
      .ok (.failure paid gas .exceptional)
    else do
      let deposit ← Gas.deposit m.data.length
      if deposit ≤ gas then
        .ok (.success (paid.setCode address m.data) (gas.satSub deposit) m.data)
      else if ctx.rules.homestead then .ok (.failure paid gas .exceptional)
      else .ok (.success paid gas [])

/-- The writes of a call that succeeded reach the world; one that failed leaves it as it was. An
exceptional halt takes all gas. -/
def commitFrame (w : World) (f : Frame WriteSet) : Frame World :=
  match f.outcome with
  | .ok output => .success (f.store.commit w) f.gas output
  | .error .revert => .failure w f.gas .revert
  | .error .exceptional => .failure w 0 .exceptional

/-- What the pre-charge establishes: the gas due before execution, and the nonce of the sender
before the message. -/
structure Upfront where
  intrinsic : U64
  nonce : U64

/-- What the pre-charge comes to: what it establishes, or the first check that failed, and in either
case the world and the pool after it. -/
structure PreCharge where
  outcome : Except ExecutionError Upfront
  world : World
  pool : GasPool

/-- Makes all checks before the first write. -/
def preCharge (ctx : BlockContext) (m : Message) (w : World) (pool : GasPool) :
    Checked PreCharge :=
  let refuse (e : ExecutionError) : Checked PreCharge := .ok ⟨.error e, w, pool⟩
  let account := (w.account? m.sender).getD {}
  match compare account.nonce.toNat m.nonce.toNat with
  | .lt => refuse (.nonceTooHigh m.sender m.nonce account.nonce)
  | .gt => refuse (.nonceTooLow m.sender m.nonce account.nonce)
  | .eq =>
    if account.nonce = .max then refuse (.nonceMax m.sender account.nonce)
    else
      match m.gasPrice.mul? m.gasLimit.widen with
      | none => refuse .gasOverflow
      | some gasCost =>
        match account.balance.sub? gasCost with
        | none => refuse (.insufficientBalanceForGas m.sender account.balance gasCost)
        | some afterGas =>
          match Gas.intrinsic? m.data m.recipient.isNone ctx.rules.homestead with
          | none => refuse .gasOverflow
          | some intrinsic =>
            if m.gasLimit < intrinsic then refuse (.intrinsicGas m.gasLimit intrinsic)
            else if afterGas < m.value then
              refuse (.insufficientBalanceForTransfer m.sender afterGas m.value)
            else
              match pool.sub m.gasLimit with
              | .error shortage => refuse (.gasLimitReached shortage)
              | .ok left => do
                let next ← account.nonce.add 1
                let world := (w.setBalance m.sender afterGas).setNonce m.sender next
                .ok ⟨.ok ⟨intrinsic, account.nonce⟩, world, left⟩

/-- Refunds gas to sender and pool and pays the fees. -/
def charge (ctx : BlockContext) (m : Message) (pool : GasPool) (f : Frame World) :
    Checked Execution := do
  let spent ← m.gasLimit.sub f.gas
  let refund := f.store.refund.min (spent.div Gas.refundQuotient)
  let left ← f.gas.add refund
  let used ← m.gasLimit.sub left
  let repaid := f.store.addBalance m.sender (m.gasPrice.satMul left.widen)
  let world := repaid.addBalance ctx.coinbase (m.gasPrice.satMul used.widen)
  .ok ⟨.ok ⟨f.output, used, f.failed⟩, world, pool.add left⟩

/-- Applies a message by committing a write set. -/
def apply : Executor := fun ctx m w pool => do
  let charged ← preCharge ctx m w pool
  match charged.outcome with
  | .error e => .ok ⟨.error e, charged.world, charged.pool⟩
  | .ok upfront =>
    let gas ← m.gasLimit.sub upfront.intrinsic
    let frame ← match m.recipient with
      | some target => call ctx m target charged.world gas
      | none => create ctx m upfront.nonce charged.world gas
    charge ctx m charged.pool (commitFrame charged.world frame)

end TwinLedger.Buffered
