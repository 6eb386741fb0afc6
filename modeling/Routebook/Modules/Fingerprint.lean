/-
  Routebook.Modules.Fingerprint

  Fingerprints of texts: the first eight hexadecimal digits of the SHA-1 hash
  of their bytes.  Modules whose names are taken get a private name with the
  fingerprint of the place they come from.
-/
import Routebook.Text.Literal

namespace Routebook.Fingerprint

/-- The five words a hash consists of. -/
structure Hash where
  a : UInt32
  b : UInt32
  c : UInt32
  d : UInt32
  e : UInt32

/-- The hash before any block. -/
def start : Hash := ⟨0x67452301, 0xEFCDAB89, 0x98BADCFE, 0x10325476, 0xC3D2E1F0⟩

/-- Turn a word to the left. -/
def rotate (x : UInt32) (n : UInt32) : UInt32 := (x <<< n) ||| (x >>> (32 - n))

/-- The bytes of a message with its end mark and its length in bits. -/
def pad (bytes : List UInt8) : List UInt8 :=
  let zeros := (119 - bytes.length % 64) % 64
  let bits := bytes.length * 8
  bytes ++ [0x80] ++ List.replicate zeros 0 ++
    (List.range 8).map fun i => UInt8.ofNat (bits / Nat.pow 256 (7 - i) % 256)

/-- The words of some bytes, four bytes each. -/
def words : List UInt8 → List UInt32
  | a :: b :: c :: d :: rest =>
    UInt32.ofNat (((a.toNat * 256 + b.toNat) * 256 + c.toNat) * 256 + d.toNat) :: words rest
  | _ => []

/-- Sixteen words followed by the ones made from them; the latest word stands
first while they are made. -/
def expand (block : List UInt32) : List UInt32 :=
  let latest := (List.range 64).foldl
    (fun ws _ =>
      rotate ((ws.getD 2 0) ^^^ (ws.getD 7 0) ^^^ (ws.getD 13 0) ^^^ (ws.getD 15 0)) 1 :: ws)
    block.reverse
  latest.reverse

/-- The mixing of a round and its constant. -/
def mix (i : Nat) (h : Hash) : UInt32 × UInt32 :=
  if i < 20 then ((h.b &&& h.c) ||| ((~~~h.b) &&& h.d), 0x5A827999)
  else if i < 40 then (h.b ^^^ h.c ^^^ h.d, 0x6ED9EBA1)
  else if i < 60 then ((h.b &&& h.c) ||| (h.b &&& h.d) ||| (h.c &&& h.d), 0x8F1BBCDC)
  else (h.b ^^^ h.c ^^^ h.d, 0xCA62C1D6)

/-- One round. -/
def round (h : Hash) (i : Nat) (w : UInt32) : Hash :=
  let (f, k) := mix i h
  ⟨rotate h.a 5 + f + h.e + k + w, h.a, rotate h.b 30, h.c, h.d⟩

/-- Take one block of sixteen words. -/
def block (h : Hash) (ws : List UInt32) : Hash :=
  let r := (expand ws).zipIdx.foldl (fun acc p => round acc p.2 p.1) h
  ⟨h.a + r.a, h.b + r.b, h.c + r.c, h.d + r.d, h.e + r.e⟩

/-- Take all blocks; `count` is their number. -/
def blocks : Nat → Hash → List UInt32 → Hash
  | 0, h, _ => h
  | count + 1, h, ws => blocks count (block h (ws.take 16)) (ws.drop 16)

/-- The first word of the hash of some bytes. -/
def firstWord (bytes : List UInt8) : UInt32 :=
  let ws := words (pad bytes)
  (blocks (ws.length / 16) start ws).a

/-- The fingerprint of a text. -/
def ofText (s : String) : String :=
  String.ofList (Text.hexDigits 8 (firstWord s.toUTF8.toList).toNat)

end Routebook.Fingerprint
