import TwinLedger.Hash.Sha2
import TwinLedger.Signature.Edwards

/-!
# Ed25519 signatures

Keys are seeds of 32 bytes. A signature is a point `R` and a scalar `s` below the order of the
group; it holds for a message when the written form of `[s] B - [k] A` is `R`, byte for byte,
with `k` the hash of `R`, the public key and the message.
-/

namespace TwinLedger.Ed25519

open Edwards

/-- A number written least significant byte first. -/
def number (bytes : Bytes) : Nat := Bytes.toNat bytes.reverse

/-- The scalar that binds a message to `R` and to the public key. -/
def challenge (r publicKey message : Bytes) : Nat :=
  number (sha512 (r ++ publicKey ++ message)) % groupOrder

/-- What a seed stands for: a scalar, and a string that makes the nonces. -/
structure Secret where
  scalar : Nat
  nonceKey : Bytes

/-- The highest bit but one of 32 bytes. -/
def secondBit : Nat := Nat.pow 2 254

/-- The scalar is taken from the hash of the seed, its three lowest bits cleared and its highest
bit but one set. -/
def Secret.ofSeed (seed : FixedBytes 32) : Secret :=
  let digest := sha512 seed.toBytes
  let n := number (digest.take 32)
  ⟨n % secondBit / 8 * 8 + secondBit, digest.drop 32⟩

/-- The public key of a seed. -/
def publicKey (seed : FixedBytes 32) : FixedBytes 32 :=
  .ofBytes (Point.base.scale 255 (Secret.ofSeed seed).scalar).encode

/-- The signature of a message, a function of seed and message alone. -/
def sign (seed : FixedBytes 32) (message : Bytes) : FixedBytes 64 :=
  let secret := Secret.ofSeed seed
  let nonce := number (sha512 (secret.nonceKey ++ message)) % groupOrder
  let r := (Point.base.scale 253 nonce).encode
  let k := challenge r (publicKey seed).toBytes message
  .ofBytes (r ++ Bytes.littleEndian 32 ((k * secret.scalar + nonce) % groupOrder))

/-- The point of a public key, if it is one. -/
def point? (key : FixedBytes 32) : Option Point := Point.decode? key.toBytes

/-- Whether a signature holds for a message under the key with the given point. -/
def verify (key : FixedBytes 32) (point : Point) (message : Bytes) (signature : FixedBytes 64) :
    Bool :=
  let bytes := signature.toBytes
  let r := bytes.take 32
  let s := number (bytes.drop 32)
  let k := challenge r key.toBytes message
  decide (s < groupOrder) &&
    ((Point.base.scale 253 s).add (point.neg.scale 253 k)).encode == r

end TwinLedger.Ed25519
