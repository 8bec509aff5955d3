/-!
# Bits of a compressed stream

A stream of octets is a stream of bits, the least bit of each octet first. Numbers
are stored with their least bit first, and octets that are not compressed at the
start of an octet of the stream.
-/

namespace ManifestBundle.Gzip

/-- The bits of a number, the least first: `count` of them. -/
def bitsOf : (count : Nat) → Nat → List Bool
  | 0, _ => []
  | count + 1, n => (n % 2 == 1) :: bitsOf count (n / 2)

/-- The bits of octets. -/
def bits (os : List UInt8) : List Bool :=
  os.flatMap fun o => bitsOf 8 o.toNat

/-- The number of `count` bits here, and the bits behind them. -/
def number? : (count : Nat) → List Bool → Option (Nat × List Bool)
  | 0, bs => some (0, bs)
  | _ + 1, [] => none
  | count + 1, b :: bs => do
    let (n, bs) ← number? count bs
    return (b.toNat + 2 * n, bs)

/-- The bits from the start of the next octet on. -/
def align (bs : List Bool) : List Bool :=
  bs.drop (bs.length % 8)

/-- The `count` octets here, and the bits behind them. -/
def octets? : (count : Nat) → List Bool → Option (List UInt8 × List Bool)
  | 0, bs => some ([], bs)
  | count + 1, bs => do
    let (n, bs) ← number? 8 bs
    let (os, bs) ← octets? count bs
    return (UInt8.ofNat n :: os, bs)

end ManifestBundle.Gzip
