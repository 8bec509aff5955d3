/-!
# Checksums of compressed files

The cyclic redundancy check of 32 bits that guards the content, and in part the
header, of a compressed file.
-/

namespace ManifestBundle.Gzip

/-- The remainder after one more bit. -/
def checksumBit (c : UInt32) : UInt32 :=
  if c &&& 1 = 1 then (c >>> 1) ^^^ 0xedb88320 else c >>> 1

/-- The remainder after one more octet. -/
def checksumOctet (c : UInt32) (o : UInt8) : UInt32 :=
  (checksumBit ∘ checksumBit ∘ checksumBit ∘ checksumBit ∘ checksumBit ∘ checksumBit ∘
    checksumBit ∘ checksumBit) (c ^^^ o.toUInt32)

/-- The checksum of octets. -/
def checksum (os : List UInt8) : UInt32 :=
  ~~~ os.foldl checksumOctet 0xffffffff

end ManifestBundle.Gzip
