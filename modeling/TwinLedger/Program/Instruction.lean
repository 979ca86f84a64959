import TwinLedger.Data.Hex

/-!
# Instructions

A program is a sequence of instructions, run from its first byte on. Each is an opcode and what
stands immediately behind it:

* `stop` (0x00) ends the run;
* `store` (0x01), a key and a value of 32 bytes each, writes a storage slot;
* `log` (0x02), a count of at most four, that many topics of 32 bytes, a length byte and as many
  bytes of data, emits a log;
* `ret` (0x03), a length byte and as many bytes of data, ends the run with an output;
* `revert` (0x04) ends the run and undoes it.
-/

namespace TwinLedger

/-- The first byte of an instruction. -/
inductive Opcode where
  | stop
  | store
  | log
  | ret
  | revert
  deriving DecidableEq

namespace Opcode

def toByte : Opcode → UInt8
  | .stop => 0x00
  | .store => 0x01
  | .log => 0x02
  | .ret => 0x03
  | .revert => 0x04

def ofByte? (b : UInt8) : Option Opcode :=
  if b = 0x00 then some .stop
  else if b = 0x01 then some .store
  else if b = 0x02 then some .log
  else if b = 0x03 then some .ret
  else if b = 0x04 then some .revert
  else none

end Opcode

/-- The most topics of a log. -/
def maxLogTopics : Nat := 4

/-- A decoded instruction. -/
inductive Instruction where
  | stop
  | store (key value : Hash)
  | log (topics : List Hash) (data : Bytes)
  | ret (data : Bytes)
  | revert
  deriving DecidableEq

namespace Instruction

/-- Whether the run ends after the instruction. -/
def isTerminal : Instruction → Bool
  | .stop | .ret _ | .revert => true
  | .store _ _ | .log _ _ => false

/-- Data behind its length, of which one byte is written. -/
def encodeData (data : Bytes) : Bytes := UInt8.ofNat data.length :: data

/-- The bytes of an instruction. Counts are written in one byte whatever their size. -/
def encode : Instruction → Bytes
  | .stop => [Opcode.stop.toByte]
  | .store key value => Opcode.store.toByte :: (key.toBytes ++ value.toBytes)
  | .log topics data =>
    Opcode.log.toByte :: UInt8.ofNat topics.length ::
      (topics.flatMap FixedBytes.toBytes ++ encodeData data)
  | .ret data => Opcode.ret.toByte :: encodeData data
  | .revert => [Opcode.revert.toByte]

/-- How many bytes an instruction has. -/
def size : Instruction → Nat
  | .stop | .revert => 1
  | .store _ _ => 65
  | .log topics data => 3 + 32 * topics.length + data.length
  | .ret data => 2 + data.length

/-- The bytes of a program. -/
def encodeAll (program : List Instruction) : Bytes := program.flatMap encode

end Instruction

end TwinLedger
