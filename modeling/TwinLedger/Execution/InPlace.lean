import TwinLedger.Execution.Basic
import TwinLedger.Execution.Precompile
import TwinLedger.Program.Instruction
import TwinLedger.World.Journal

/-!
# The executor that writes in place

A message is a sequence of writes to the world: gas is bought, the nonce of the sender raised, the
call or creation performed, the gas settled. A program runs while its bytes are read, each
instruction being charged before its effect. A call that fails is undone by going back to the
checkpoint taken before it.
-/

namespace TwinLedger.InPlace

/-- Runs the rest of a program, instruction by instruction. -/
def interpret (address : Address) (byzantium : Bool) (code : Bytes) (gas : U64) (w : World) :
    Checked (Frame World) :=
  match code with
  | [] => .ok (.success w gas [])
  | b :: bytes =>
    match Opcode.ofByte? b with
    | none => .ok (.failure w gas .exceptional)
    | some .stop =>
      match gas.sub? Gas.bareInstruction with
      | none => .ok (.failure w gas .exceptional)
      | some left => .ok (.success w left [])
    | some .store =>
      match _hkey : FixedBytes.read? 32 bytes with
      | none => .ok (.failure w gas .exceptional)
      | some (key, afterKey) =>
        match _hvalue : FixedBytes.read? 32 afterKey with
        | none => .ok (.failure w gas .exceptional)
        | some (value, rest) => do
          let charge := Gas.storageCharge (w.storage address key).isZero value.isZero
          let cost ← Gas.instruction charge.cost
          match gas.sub? cost with
          | none => .ok (.failure w gas .exceptional)
          | some left =>
            interpret address byzantium rest left
              ((w.setStorage address key value).addRefund charge.refund)
    | some .log =>
      match bytes with
      | [] => .ok (.failure w gas .exceptional)
      | n :: afterCount =>
        if maxLogTopics < n.toNat then .ok (.failure w gas .exceptional)
        else
          match _htopics : FixedBytes.readMany? 32 n.toNat afterCount with
          | none => .ok (.failure w gas .exceptional)
          | some (_, []) => .ok (.failure w gas .exceptional)
          | some (topics, length :: afterTopics) =>
            match _hdata : Bytes.split? length.toNat afterTopics with
            | none => .ok (.failure w gas .exceptional)
            | some (data, rest) => do
              let logCost ← Gas.logCost topics.length data.length
              let cost ← Gas.instruction logCost
              match gas.sub? cost with
              | none => .ok (.failure w gas .exceptional)
              | some left =>
                interpret address byzantium rest left (w.addLog { address, topics, data })
    | some .ret =>
      match bytes with
      | [] => .ok (.failure w gas .exceptional)
      | length :: afterLength =>
        match Bytes.split? length.toNat afterLength with
        | none => .ok (.failure w gas .exceptional)
        | some (data, _) =>
          match gas.sub? Gas.bareInstruction with
          | none => .ok (.failure w gas .exceptional)
          | some left => .ok (.success w left data)
    | some .revert =>
      if byzantium then
        match gas.sub? Gas.bareInstruction with
        | none => .ok (.failure w gas .exceptional)
        | some left => .ok (.failure w left .revert)
      else .ok (.failure w gas .exceptional)
termination_by code.length
decreasing_by
  · have := FixedBytes.length_of_read? _hkey
    have := FixedBytes.length_of_read? _hvalue
    simp
    omega
  · have := FixedBytes.length_of_readMany? _htopics
    obtain ⟨rfl, _⟩ := Bytes.split?_eq_some _hdata
    simp at this ⊢
    omega

/-- Undoes a call that failed; an exceptional halt also takes all gas. -/
def settleFrame (point : Checkpoint) (f : Frame World) : Frame World :=
  match f.outcome with
  | .ok _ => f
  | .error .revert => { f with store := f.store.restore point }
  | .error .exceptional => { f with store := f.store.restore point, gas := 0 }

/-- A call of an account. One that does not exist is created, unless under EIP-158 there is
nothing to bring it. -/
def call (ctx : BlockContext) (m : Message) (target : Address) (w : World) (gas : U64) :
    Checked (Frame World) :=
  let point := w.checkpoint
  let precompile := Precompile.at? target
  if !w.exists? target && precompile.isNone && ctx.rules.eip158 && m.value == 0 then
    .ok (.success w gas [])
  else do
    let present := if w.exists? target then w else w.createAccount target
    let paid := (present.subBalance m.sender m.value).addBalance target m.value
    let frame ← match precompile with
      | some p => do
        let cost ← p.gasCost m.data
        match gas.sub? cost with
        | none => .ok (.failure paid gas .exceptional)
        | some left => .ok (.success paid left (p.run m.data))
      | none => interpret target ctx.rules.byzantium (paid.code target) gas paid
    .ok (settleFrame point frame)

/-- The creation of a contract by a sender whose nonce was the given one. The data of the message
is the code. -/
def create (ctx : BlockContext) (m : Message) (nonce : U64) (w : World) (gas : U64) :
    Checked (Frame World) :=
  let address := Address.ofCreation m.sender nonce
  if w.nonce address != 0 || !(w.code address).isEmpty then
    .ok (.failure w 0 .exceptional)
  else
    let point := w.checkpoint
    let created := w.createAccount address
    let started := if ctx.rules.eip158 then created.setNonce address 1 else created
    let paid := (started.subBalance m.sender m.value).addBalance address m.value
    if ctx.rules.eip158 && decide (Gas.maxCodeSize < m.data.length) then
      .ok (settleFrame point (.failure paid gas .exceptional))
    else do
      let deposit ← Gas.deposit m.data.length
      let frame := match gas.sub? deposit with
        | some left => Frame.success (paid.setCode address m.data) left m.data
        | none =>
          if ctx.rules.homestead then .failure paid gas .exceptional
          else .success paid gas []
      .ok (settleFrame point frame)

/-- What the purchase of gas comes to: the gas left for execution, or the first check that failed,
and in either case the world and the pool after it. -/
structure Purchase where
  outcome : Except ExecutionError U64
  world : World
  pool : GasPool

/-- Checks a message and buys its gas. -/
def buyGas (ctx : BlockContext) (m : Message) (w : World) (pool : GasPool) : Checked Purchase :=
  let refuse (e : ExecutionError) : Checked Purchase := .ok ⟨.error e, w, pool⟩
  let nonce := w.nonce m.sender
  if nonce < m.nonce then refuse (.nonceTooHigh m.sender m.nonce nonce)
  else if m.nonce < nonce then refuse (.nonceTooLow m.sender m.nonce nonce)
  else if nonce = .max then refuse (.nonceMax m.sender nonce)
  else
    match m.gasLimit.widen.mul? m.gasPrice with
    | none => refuse .gasOverflow
    | some gasCost =>
      let balance := w.balance m.sender
      if balance < gasCost then refuse (.insufficientBalanceForGas m.sender balance gasCost)
      else
        match Gas.intrinsic? m.data m.isCreation ctx.rules.homestead with
        | none => refuse .gasOverflow
        | some intrinsic =>
          if m.gasLimit < intrinsic then refuse (.intrinsicGas m.gasLimit intrinsic)
          else do
            let rest ← balance.sub gasCost
            if rest < m.value then
              refuse (.insufficientBalanceForTransfer m.sender rest m.value)
            else
              match pool.sub m.gasLimit with
              | .error shortage => refuse (.gasLimitReached shortage)
              | .ok left => do
                let gas ← m.gasLimit.sub intrinsic
                .ok ⟨.ok gas, w.subBalance m.sender gasCost, left⟩

/-- Gives the gas left and the refund back to sender and pool, and pays the fees. -/
def settleGas (ctx : BlockContext) (m : Message) (pool : GasPool) (f : Frame World) :
    Checked Execution := do
  let spent ← m.gasLimit.sub f.gas
  let left ← f.gas.add ((spent.div Gas.refundQuotient).min f.store.refund)
  let used ← m.gasLimit.sub left
  let repaid := f.store.addBalance m.sender (left.widen.satMul m.gasPrice)
  let world := repaid.addBalance ctx.coinbase (used.widen.satMul m.gasPrice)
  .ok ⟨.ok ⟨f.output, used, f.failed⟩, world, pool.add left⟩

/-- Applies a message by writing to the world. -/
def apply : Executor := fun ctx m w pool => do
  let bought ← buyGas ctx m w pool
  match bought.outcome with
  | .error e => .ok ⟨.error e, bought.world, bought.pool⟩
  | .ok gas =>
    let nonce := bought.world.nonce m.sender
    let next ← nonce.add 1
    let raised := bought.world.setNonce m.sender next
    let frame ← match m.recipient with
      | some target => call ctx m target raised gas
      | none => create ctx m nonce raised gas
    settleGas ctx m bought.pool frame

end TwinLedger.InPlace
