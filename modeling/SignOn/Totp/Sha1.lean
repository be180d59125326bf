/-! # SHA-1 and HMAC

The hash function of the one-time codes, over lists of bytes.  Words have 32 bits and addition
wraps around. -/

namespace SignOn.Sha1

/-- The five words of the state. -/
structure State where
  a : UInt32
  b : UInt32
  c : UInt32
  d : UInt32
  e : UInt32
deriving DecidableEq, Repr

/-- The state before the first block. -/
def start : State :=
  ⟨0x67452301, 0xEFCDAB89, 0x98BADCFE, 0x10325476, 0xC3D2E1F0⟩

def rotl (n : UInt32) (x : UInt32) : UInt32 :=
  (x <<< n) ||| (x >>> (32 - n))

/-- The bytes of a number, most significant first. -/
def bytesOf (width n : Nat) : List UInt8 :=
  ((List.range width).map fun i => (n >>> (8 * i) % 256).toUInt8).reverse

def wordOf (bytes : List UInt8) : UInt32 :=
  bytes.foldl (fun w b => w <<< 8 ||| b.toUInt32) 0

/-- Cut a list into pieces of `n`, `count` times. -/
def pieces {α : Type} (n : Nat) : (count : Nat) → List α → List (List α)
  | 0, _ => []
  | count + 1, xs => xs.take n :: pieces n count (xs.drop n)

/-- A message with its padding: a set bit, zeros up to a full block, the length in bits. -/
def padded (message : List UInt8) : List UInt8 :=
  let zeros := (119 - message.length % 64) % 64
  message ++ 0x80 :: List.replicate zeros 0 ++ bytesOf 8 (8 * message.length)

/-- Extend a block of sixteen words, last first, by `n` words. -/
def extend : (n : Nat) → List UInt32 → List UInt32
  | 0, ws => ws
  | n + 1, ws =>
    let at_ (i : Nat) : UInt32 := ws.getD (i - 1) 0
    extend n (rotl 1 (at_ 3 ^^^ at_ 8 ^^^ at_ 14 ^^^ at_ 16) :: ws)

def round (s : State) (i : Nat) (w : UInt32) : State :=
  let (f, k) : UInt32 × UInt32 :=
    if i < 20 then ((s.b &&& s.c) ||| (~~~s.b &&& s.d), 0x5A827999)
    else if i < 40 then (s.b ^^^ s.c ^^^ s.d, 0x6ED9EBA1)
    else if i < 60 then ((s.b &&& s.c) ||| (s.b &&& s.d) ||| (s.c &&& s.d), 0x8F1BBCDC)
    else (s.b ^^^ s.c ^^^ s.d, 0xCA62C1D6)
  ⟨rotl 5 s.a + f + s.e + k + w, s.a, rotl 30 s.b, s.c, s.d⟩

def block (s : State) (bytes : List UInt8) : State :=
  let words := (extend 64 ((pieces 4 16 bytes).map wordOf).reverse).reverse
  let t := words.zipIdx.foldl (fun s w => round s w.2 w.1) s
  ⟨s.a + t.a, s.b + t.b, s.c + t.c, s.d + t.d, s.e + t.e⟩

/-- The hash of a message: twenty bytes. -/
def hash (message : List UInt8) : List UInt8 :=
  let bytes := padded message
  let s := (pieces 64 (bytes.length / 64) bytes).foldl block start
  [s.a, s.b, s.c, s.d, s.e].flatMap fun w => bytesOf 4 w.toNat

/-- The keyed hash of a message. -/
def hmac (key message : List UInt8) : List UInt8 :=
  let key := if key.length > 64 then hash key else key
  let key := key ++ List.replicate (64 - key.length) 0
  hash (key.map (· ^^^ 0x5C) ++ hash (key.map (· ^^^ 0x36) ++ message))

end SignOn.Sha1
