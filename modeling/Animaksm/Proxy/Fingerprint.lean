import Mathlib.Data.List.Basic
import Mathlib.Data.Fintype.Pi

/-!
# Pages and fingerprints

A page is a list of exactly `pageSize` bytes. The 128-bit hash itself is a
parameter of everything above: the results hold for every map from pages to
sixteen bytes, collisions included. Index arithmetic is that of `u64`.
-/

namespace Animaksm.Proxy

/-- Size of a memory page in bytes. -/
def pageSize : Nat := 4096

/-- One page of memory: its bytes, of exactly the page length. -/
@[ext] structure Page where
  /-- Content, first byte first. -/
  bytes : List UInt8
  /-- No other length is a page. -/
  length_bytes : bytes.length = pageSize
  deriving DecidableEq

attribute [simp] Page.length_bytes

/-- A 128-bit page fingerprint, as its sixteen bytes. -/
abbrev Fingerprint := Fin 16 → UInt8

/-- Cut or zero-pad data to exactly one page. -/
def normalizePage (data : List UInt8) : Page where
  bytes := data.take pageSize ++ List.replicate (pageSize - data.length) 0
  length_bytes := by
    simp only [List.length_append, List.length_take, List.length_replicate]
    omega

/-- The page of zero bytes. -/
def zeroPage : Page := normalizePage []

/-- Data of exactly one page is left as it is. -/
@[simp] theorem normalizePage_bytes (p : Page) : normalizePage p.bytes = p := by
  apply Page.ext
  simp [normalizePage, List.take_of_length_le]

/-- Compare the first bytes of a stored prefix and of new data, at most 64 of them. -/
def verifyPagePrefix (stored new : List UInt8) : Bool :=
  let prefixLen := min (min 64 stored.length) new.length
  stored.take prefixLen == new.take prefixLen

/-- The first 64 bytes of a page, zero-padded for shorter data. -/
def pagePrefix (data : List UInt8) : List UInt8 :=
  data.take 64 ++ List.replicate (64 - data.length) 0

/-- A full page needs no padding in its prefix. -/
theorem pagePrefix_bytes (p : Page) : pagePrefix p.bytes = p.bytes.take 64 := by
  have hlen : 64 - p.bytes.length = 0 := by
    rw [p.length_bytes]
    decide
  rw [pagePrefix, hlen, List.replicate_zero, List.append_nil]

/-- A page always verifies against its own prefix. -/
theorem verifyPagePrefix_pagePrefix (p : Page) :
    verifyPagePrefix (pagePrefix p.bytes) p.bytes = true := by
  rw [pagePrefix_bytes, verifyPagePrefix, beq_iff_eq, List.take_take]
  congr 1
  rw [List.length_take]
  omega

/-- A `u64` from its bytes, least significant first. -/
def fromLeBytes : List UInt8 → Nat
  | [] => 0
  | b :: rest => b.toNat + 256 * fromLeBytes rest

/-- Three Bloom filter indices below the number of bits. -/
def bloomIndices (fp : Fingerprint) (numBits : Nat) : List Nat :=
  let h1 := fromLeBytes [fp 0, fp 1, fp 2, fp 3, fp 4, fp 5, fp 6, fp 7]
  let h2 := fromLeBytes [fp 8, fp 9, fp 10, fp 11, fp 12, fp 13, fp 14, fp 15]
  let h3 := (h1 + h2) % 2 ^ 64
  [h1 % numBits, h2 % numBits, h3 % numBits]

/-- Every index addresses a bit of the filter. -/
theorem bloomIndices_lt {fp : Fingerprint} {numBits i : Nat} (h : 0 < numBits)
    (hi : i ∈ bloomIndices fp numBits) : i < numBits := by
  simp only [bloomIndices, List.mem_cons, List.not_mem_nil, or_false] at hi
  rcases hi with hi | hi | hi <;> rw [hi] <;> exact Nat.mod_lt _ h

end Animaksm.Proxy
