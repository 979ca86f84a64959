import TwinLedger.Proofs.Block.Run
import TwinLedger.Proofs.Execution.Creation

/-!
# Contracts in a block

The address of a new contract is computed twice: the executor takes the nonce that it finds at the
sender, and the receipt takes the nonce of the transaction. A message is admitted only if the two
are the same, so the receipt names the account that is there:

> `creation_outcome`: what comes of a message that creates a contract, and that its receipt names
> the contract and the finalised world has it.
-/

namespace TwinLedger

/-- A transaction with a receipt that creates a contract: its message was executed, the receipt
names the address, and unless the creation failed the contract is in the finalised world. -/
theorem contract_of_applyWith {seat : Seat} {chain : Chain} {author : Option Address}
    {header : Header} {tx : Transaction} {live : Live} {applied : Applied} {receipt : Receipt}
    {gas : U64} (hcreation : tx.isCreation = true)
    (h : applyWith chain (Executors.stock.at seat) author header tx live = .ok applied)
    (hdone : applied.outcome = .ok (receipt, gas)) :
    ∃ m x r,
      (Signer.forBlock chain.config header.number).asMessage tx = .ok m ∧
      Executors.stock.at seat (.ofHeader m header (author.getD (chain.author header)) chain.config)
        m live.world live.pool = .ok x ∧
      x.result = .ok r ∧
      applied.live.world = x.world.finalise (chain.config.isEip158 header.number) ∧
      receipt.contractAddress = some (Address.ofCreation m.sender m.nonce) ∧
      (r.failed = false →
        applied.live.world.exists? (Address.ofCreation m.sender m.nonce) = true) := by
  cases appliedAs_of_applyWith h with
  | unsigned hmessage => cases hdone
  | refused hmessage hx hresult => cases hdone
  | @included m x r usedGas hmessage hx hresult hused =>
    cases hdone
    have hm := (message_of_asMessage hmessage).2
    have hrecipient : m.recipient = none := by
      rw [hm]
      exact Option.isNone_iff_eq_none.1 hcreation
    have hnonce : m.nonce = tx.nonce := by rw [hm]; rfl
    refine ⟨m, x, r, hmessage, hx, hresult, rfl, ?_, ?_⟩
    · have hcontract : m.isCreation = true := by rw [Message.isCreation, hrecipient]; rfl
      rw [Receipt.ofExecution, hcontract, hnonce]
      rfl
    · intro hok
      obtain ⟨a, f, hsettled, rfl⟩ := Settled.of_apply hx hresult
      exact (hsettled.newContract hrecipient hok).exists?_finalise

/-- In either seat, a message that creates a contract fails for one of four reasons, or leaves a
fresh account with its data for code, with the money that was at the address, the value and perhaps
the fees. The receipt of a transaction names that account, and it is there in the finalised
world. -/
theorem creation_outcome :
    (∀ (seat : Seat) (ctx : BlockContext) (m : Message) (w : World) (pool : GasPool) (x : Execution)
      (r : ExecutionResult),
      m.recipient = none → w.totalBalance < Word.range 256 →
      Executors.stock.at seat ctx m w pool = .ok x → x.result = .ok r →
      CreationOutcome ctx m (Address.ofCreation m.sender m.nonce) w r x) ∧
    ∀ (seat : Seat) (chain : Chain) (author : Option Address) (header : Header) (tx : Transaction)
      (live : Live) (applied : Applied) (receipt : Receipt) (gas : U64),
      tx.isCreation = true →
      applyWith chain (Executors.stock.at seat) author header tx live = .ok applied →
      applied.outcome = .ok (receipt, gas) →
      ∃ m x r,
        (Signer.forBlock chain.config header.number).asMessage tx = .ok m ∧
        Executors.stock.at seat
          (.ofHeader m header (author.getD (chain.author header)) chain.config) m live.world
          live.pool = .ok x ∧
        x.result = .ok r ∧
        applied.live.world = x.world.finalise (chain.config.isEip158 header.number) ∧
        receipt.contractAddress = some (Address.ofCreation m.sender m.nonce) ∧
        (r.failed = false →
          applied.live.world.exists? (Address.ofCreation m.sender m.nonce) = true) := by
  refine ⟨?_, ?_⟩
  · intro seat ctx m w pool x r hrecipient hfunds hx hr
    obtain ⟨a, f, hsettled, rfl⟩ := Settled.of_apply hx hr
    exact hsettled.creationOutcome hrecipient hfunds
  · intro seat chain author header tx live applied receipt gas hcreation h hdone
    exact contract_of_applyWith hcreation h hdone

/-- A creation in a block of its own sender, under all rules, and one that cannot pay for its
deposit, on a chain without forks. -/
theorem creation_outcome_unpaid :
    (∃ x r,
      Executors.stock.at .alternate (sampleContext 16)
        { sampleMessage 0 60000 with recipient := none, data := [1, 2] } sampleWorld ⟨100000⟩ =
          .ok x ∧
      x.result = .ok r ∧ r.failed = false ∧
      CreationOutcome (sampleContext 16)
        { sampleMessage 0 60000 with recipient := none, data := [1, 2] }
        (Address.ofCreation 16 0) sampleWorld r x) ∧
    ∃ applied receipt gas m,
      applyWith plainChain (Executors.stock.at .reference) none {}
        { neutralTransaction with recipient := none, input := [1], gasLimit := 21100 }
        { plainLive with pool := ⟨21100⟩ } = .ok applied ∧
      applied.outcome = .ok (receipt, gas) ∧
      (Signer.forBlock plainChain.config ({} : Header).number).asMessage
        { neutralTransaction with recipient := none, input := [1], gasLimit := 21100 } = .ok m ∧
      receipt.contractAddress = some (Address.ofCreation m.sender m.nonce) := by
  refine ⟨?_, ?_⟩
  · have hanswer : (Executors.stock.at .alternate (sampleContext 16)
        { sampleMessage 0 60000 with recipient := none, data := [1, 2] } sampleWorld
        ⟨100000⟩).toOption.any (fun x => x.result.toOption.any fun r => !r.failed) = true := by
      decide +kernel
    obtain ⟨x, hx, hresult⟩ := exists_of_any hanswer
    obtain ⟨r, hr, hok⟩ := exists_of_any hresult
    have hfunds : sampleWorld.totalBalance < Word.range 256 := by decide +kernel
    exact ⟨x, r, hx, hr, by simpa using hok,
      creation_outcome.1 .alternate _ _ _ _ x r rfl hfunds hx hr⟩
  · have hanswer : (applyWith plainChain (Executors.stock.at .reference) none {}
        { neutralTransaction with recipient := none, input := [1], gasLimit := 21100 }
        { plainLive with pool := ⟨21100⟩ }).toOption.any (fun applied => applied.outcome.isOk) =
          true := by decide +kernel
    obtain ⟨applied, happlied, hdone⟩ := exists_of_any hanswer
    cases houtcome : applied.outcome with
    | error e =>
      rw [houtcome] at hdone
      cases hdone
    | ok done =>
      obtain ⟨receipt, gas⟩ := done
      obtain ⟨m, x, r, hmessage, -, -, -, haddress, -⟩ :=
        creation_outcome.2 .reference plainChain none {} _ _ applied receipt gas rfl happlied
          houtcome
      exact ⟨applied, receipt, gas, m, happlied, houtcome, hmessage, haddress⟩

end TwinLedger
