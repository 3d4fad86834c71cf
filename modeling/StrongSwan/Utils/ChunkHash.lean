import StrongSwan.Basic

/-!
# Hashes of chunks

`chunkMac` is SipHash-2-4, `chunkHash` and `chunkHashInc` are hashes with a key that is drawn when the
process starts.
-/

namespace StrongSwan

/-- The state of SipHash. -/
structure SipState where
  v0 : U64
  v1 : U64
  v2 : U64
  v3 : U64

/-- Eight bytes in little-endian order. -/
def sipget (bytes : Chunk) : U64 := BitVec.ofNat 64 (Bytes.value (bytes.take 8).reverse)

def sipround (s : SipState) : SipState :=
  let v0 := s.v0 + s.v1
  let v1 := s.v1.rotateLeft 13 ^^^ v0
  let v0 := v0.rotateLeft 32
  let v2 := s.v2 + s.v3
  let v3 := s.v3.rotateLeft 16 ^^^ v2
  let v2 := v2 + v1
  let v1 := v1.rotateLeft 17 ^^^ v2
  let v2 := v2.rotateLeft 32
  let v0 := v0 + v3
  let v3 := v3.rotateLeft 21 ^^^ v0
  ⟨v0, v1, v2, v3⟩

def sipcompress (s : SipState) (m : U64) : SipState :=
  let s := sipround (sipround { s with v3 := s.v3 ^^^ m })
  { s with v0 := s.v0 ^^^ m }

/-- The last block: the bytes that are left, and the length. -/
def siplast (len : ℕ) (bytes : Chunk) : U64 :=
  BitVec.ofNat 64 len <<< 56 ||| BitVec.ofNat 64 (Bytes.value bytes.reverse)

/-- Calculate SipHash-2-4 with an optional first block given as argument. -/
def chunkMacInc (chunk key : Chunk) (m : U64) : U64 :=
  let k0 := sipget key
  let k1 := sipget (key.drop 8)
  let s : SipState := ⟨k0 ^^^ 0x736f6d6570736575, k1 ^^^ 0x646f72616e646f6d,
    k0 ^^^ 0x6c7967656e657261, k1 ^^^ 0x7465646279746573⟩
  let s := if m ≠ 0 then sipcompress s m else s
  let blocks := chunk.length / 8
  let s := (List.range blocks).foldl (fun s i => sipcompress s (sipget (chunk.drop (8 * i)))) s
  let s := sipcompress s (siplast chunk.length (chunk.drop (8 * blocks)))
  let s := { s with v2 := s.v2 ^^^ 0xff }
  let s := sipround (sipround (sipround (sipround s)))
  s.v0 ^^^ s.v1 ^^^ s.v2 ^^^ s.v3

def chunkMac (chunk key : Chunk) : U64 := chunkMacInc chunk key 0

/-- `chunk_hash`, with the secret key -/
def chunkHash (key chunk : Chunk) : U32 := (chunkMac chunk key).setWidth 32

def chunkHashInc (key chunk : Chunk) (hash : U32) : U32 :=
  (chunkMacInc chunk key (hash.setWidth 64 <<< 32 ||| hash.setWidth 64)).setWidth 32

/-- `chunk_from_thing`: the bytes of an integer in memory (on a little-endian host). -/
def chunkFromThing {w : ℕ} (thing : BitVec w) : Chunk := (Bytes.ofNat (w / 8) thing.toNat).reverse

end StrongSwan
