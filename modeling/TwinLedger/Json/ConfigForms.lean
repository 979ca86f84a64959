import TwinLedger.Config.Chain
import TwinLedger.Config.Execution
import TwinLedger.Json.ChainForms

/-!
# The JSON forms of configurations

Only the chain id of a configuration must be given; an array may leave out the fields behind it.
-/

namespace TwinLedger

def DaoFork.form (f : DaoFork) : Json :=
  .object
    [("block", f.block.form), ("support", .bool f.support),
      ("refund_contract", f.refundContract.form),
      ("drain_list", .array (f.drainList.map FixedBytes.form))]

def DaoFork.decoder : Decoder DaoFork :=
  .record <| DaoFork.mk <$> .required "block" .u64 <*> .required "support" .bool <*>
    .required "refund_contract" (.fixed 20) <*> .required "drain_list" (.list (.fixed 20))

def ChainConfig.form (c : ChainConfig) : Json :=
  .object
    [("chain_id", c.chainId.form), ("homestead_block", .ofOption Word.form c.homesteadBlock),
      ("dao_fork", .ofOption DaoFork.form c.daoFork),
      ("eip155_block", .ofOption Word.form c.eip155Block),
      ("eip158_block", .ofOption Word.form c.eip158Block),
      ("byzantium_block", .ofOption Word.form c.byzantiumBlock)]

def ChainConfig.decoder : Decoder ChainConfig :=
  .recordFrom 1 <| ChainConfig.mk <$> .required "chain_id" .u64 <*>
    .optional "homestead_block" .u64 <*> .optional "dao_fork" DaoFork.decoder <*>
    .optional "eip155_block" .u64 <*> .optional "eip158_block" .u64 <*>
    .optional "byzantium_block" .u64

def Seat.form (s : Seat) : Json := .string s.name

def Seat.decoder : Decoder Seat :=
  Decoder.named ([Seat.reference, Seat.alternate].map fun s => (s.name, s))

def Verification.form (v : Verification) : Json := .string v.name

def Verification.decoder : Decoder Verification :=
  Decoder.named ([Verification.enabled, Verification.disabled].map fun v => (v.name, v))

end TwinLedger
