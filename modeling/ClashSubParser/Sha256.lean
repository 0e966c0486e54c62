import Mathlib.Data.List.Basic
import Mathlib.Algebra.Ring.Nat

/-! The SHA-256 hash function. -/
namespace Sha256

def roundConstants : List (BitVec 32) :=
  [0x428a2f98#32, 0x71374491#32, 0xb5c0fbcf#32, 0xe9b5dba5#32, 0x3956c25b#32, 0x59f111f1#32, 0x923f82a4#32, 0xab1c5ed5#32,
  0xd807aa98#32, 0x12835b01#32, 0x243185be#32, 0x550c7dc3#32, 0x72be5d74#32, 0x80deb1fe#32, 0x9bdc06a7#32, 0xc19bf174#32,
  0xe49b69c1#32, 0xefbe4786#32, 0x0fc19dc6#32, 0x240ca1cc#32, 0x2de92c6f#32, 0x4a7484aa#32, 0x5cb0a9dc#32, 0x76f988da#32,
  0x983e5152#32, 0xa831c66d#32, 0xb00327c8#32, 0xbf597fc7#32, 0xc6e00bf3#32, 0xd5a79147#32, 0x06ca6351#32, 0x14292967#32,
  0x27b70a85#32, 0x2e1b2138#32, 0x4d2c6dfc#32, 0x53380d13#32, 0x650a7354#32, 0x766a0abb#32, 0x81c2c92e#32, 0x92722c85#32,
  0xa2bfe8a1#32, 0xa81a664b#32, 0xc24b8b70#32, 0xc76c51a3#32, 0xd192e819#32, 0xd6990624#32, 0xf40e3585#32, 0x106aa070#32,
  0x19a4c116#32, 0x1e376c08#32, 0x2748774c#32, 0x34b0bcb5#32, 0x391c0cb3#32, 0x4ed8aa4a#32, 0x5b9cca4f#32, 0x682e6ff3#32,
  0x748f82ee#32, 0x78a5636f#32, 0x84c87814#32, 0x8cc70208#32, 0x90befffa#32, 0xa4506ceb#32, 0xbef9a3f7#32, 0xc67178f2#32]

structure State where
  a : BitVec 32
  b : BitVec 32
  c : BitVec 32
  d : BitVec 32
  e : BitVec 32
  f : BitVec 32
  g : BitVec 32
  h : BitVec 32

def initial : State :=
  ⟨0x6a09e667#32, 0xbb67ae85#32, 0x3c6ef372#32, 0xa54ff53a#32,
    0x510e527f#32, 0x9b05688c#32, 0x1f83d9ab#32, 0x5be0cd19#32⟩

def rotr (x : BitVec 32) (n : ℕ) : BitVec 32 := (x >>> n) ||| (x <<< (32-n))

def round (s : State) (k w : BitVec 32) : State :=
  let t₁ := s.h + (rotr s.e 6 ^^^ rotr s.e 11 ^^^ rotr s.e 25) +
    ((s.e &&& s.f) ^^^ (~~~s.e &&& s.g)) + k + w
  let t₂ := (rotr s.a 2 ^^^ rotr s.a 13 ^^^ rotr s.a 22) +
    ((s.a &&& s.b) ^^^ (s.a &&& s.c) ^^^ (s.b &&& s.c))
  ⟨t₁ + t₂, s.a, s.b, s.c, s.d + t₁, s.e, s.f, s.g⟩

def nextWord (window : List (BitVec 32)) : BitVec 32 :=
  let w (i : ℕ) := window.getD i 0
  (rotr (w 14) 17 ^^^ rotr (w 14) 19 ^^^ (w 14 >>> 10)) + w 9 +
    (rotr (w 1) 7 ^^^ rotr (w 1) 18 ^^^ (w 1 >>> 3)) + w 0

def rounds : List (BitVec 32) → List (BitVec 32) → State → State
  | [], _, s => s
  | k :: ks, window, s => rounds ks (window.tail ++ [nextWord window]) (round s k (window.headD 0))

def addState (s t : State) : State :=
  ⟨s.a + t.a, s.b + t.b, s.c + t.c, s.d + t.d, s.e + t.e, s.f + t.f, s.g + t.g, s.h + t.h⟩

def compress (s : State) (block : List (BitVec 32)) : State :=
  addState s (rounds roundConstants block s)

def bytesOf (text : List Char) : List (BitVec 8) :=
  text.flatMap (fun c => (String.utf8EncodeChar c).map (·.toBitVec))

def pad (bytes : List (BitVec 8)) : List (BitVec 8) :=
  bytes ++ 0x80#8 :: List.replicate ((119 - bytes.length % 64) % 64) 0x00#8 ++
    (List.range 8).reverse.map (fun i => BitVec.ofNat 8 (8*bytes.length / 256^i))

def word (b₀ b₁ b₂ b₃ : BitVec 8) : BitVec 32 := b₀ ++ b₁ ++ b₂ ++ b₃

def words : List (BitVec 8) → List (BitVec 32)
  | b₀ :: b₁ :: b₂ :: b₃ :: l => word b₀ b₁ b₂ b₃ :: words l
  | _ => []

def absorb : ℕ → List (BitVec 32) → State → State
  | 0, _, s => s
  | n+1, ws, s => if ws = [] then s else absorb n (ws.drop 16) (compress s (ws.take 16))

def digestWords (text : List Char) : List (BitVec 32) :=
  let ws := words (pad (bytesOf text))
  let s := absorb ws.length ws initial
  [s.a, s.b, s.c, s.d, s.e, s.f, s.g, s.h]

def sumText (text : List Char) (i : Fin 32) : BitVec 8 :=
  ((digestWords text).getD (i.val / 4) 0 >>> (8*(3 - i.val % 4))).setWidth 8

def sum256 (message : String) : Fin 32 → BitVec 8 := sumText message.toList

end Sha256
