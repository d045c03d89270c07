/-!
# Records of a profile

A profile is a sequence of records without header or end mark.  A record is the length of its tag
in four octets, the tag, and a count in eight octets, both numbers with the least significant octet
first.  The profile of a killed process often ends inside a record, which is then too short to read.
-/

namespace LuaCoverage

namespace LittleEndian

/-- A number in a fixed number of octets, the least significant first.  Higher octets are lost. -/
def encode : Nat → Nat → List UInt8
  | 0, _ => []
  | size + 1, number => UInt8.ofNat number :: encode size (number / 256)

/-- The number whose octets are given, the least significant first. -/
def decode : List UInt8 → Nat
  | [] => 0
  | octet :: octets => octet.toNat + 256 * decode octets

end LittleEndian

/-- A complete record as stored. -/
structure RawRecord where
  /-- Octets of the tag. -/
  tag : List UInt8
  /-- Number of hits. -/
  count : UInt64
  deriving DecidableEq

namespace RawRecord

/-- Octets taken by the length of a tag. -/
def lengthSize : Nat := 4

/-- Octets taken by a count. -/
def countSize : Nat := 8

/-- The stored form of a record. -/
def encode (record : RawRecord) : List UInt8 :=
  LittleEndian.encode lengthSize record.tag.length ++ record.tag ++
    LittleEndian.encode countSize record.count.toNat

end RawRecord

/-- A record that names a source line. -/
structure Record where
  /-- The source as the tag spells it. -/
  source : String
  /-- The line. -/
  line : Nat
  /-- Number of hits. -/
  count : UInt64
  deriving DecidableEq

end LuaCoverage
