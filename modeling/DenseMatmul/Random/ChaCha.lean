/-!
# The key stream

The ChaCha block function with twelve rounds turns a key and a 64-bit counter into sixteen words. The
stream of a key is its blocks in order, from counter zero: word `i` is word `i % 16` of block
`i / 16`.
-/

namespace DenseMatmul.Random

abbrev Key := Vector UInt32 8

abbrev Block := Vector UInt32 16

def rotateLeft (x r : UInt32) : UInt32 := (x <<< r) ||| (x >>> (32 - r))

/-- Mixes four words of a block. -/
def quarterRound (s : Block) (i j k l : Fin 16) : Block :=
  let a := s[i] + s[j]
  let d := rotateLeft (s[l] ^^^ a) 16
  let c := s[k] + d
  let b := rotateLeft (s[j] ^^^ c) 12
  let a := a + b
  let d := rotateLeft (d ^^^ a) 8
  let c := c + d
  let b := rotateLeft (b ^^^ c) 7
  (((s.set i a).set j b).set k c).set l d

/-- The four columns, then the four diagonals. -/
def doubleRound (s : Block) : Block :=
  let s := quarterRound s 0 4 8 12
  let s := quarterRound s 1 5 9 13
  let s := quarterRound s 2 6 10 14
  let s := quarterRound s 3 7 11 15
  let s := quarterRound s 0 5 10 15
  let s := quarterRound s 1 6 11 12
  let s := quarterRound s 2 7 8 13
  quarterRound s 3 4 9 14

/-- The four constant words, the key, the counter from its lower word on, and two zero words. -/
def start (key : Key) (counter : Nat) : Block :=
  #v[0x61707865, 0x3320646e, 0x79622d32, 0x6b206574,
    key[0], key[1], key[2], key[3], key[4], key[5], key[6], key[7],
    UInt32.ofNat counter, UInt32.ofNat (counter >>> 32), 0, 0]

def block (key : Key) (counter : Nat) : Block :=
  let first := start key counter
  let last := Nat.repeat doubleRound 6 first
  .ofFn fun i => last[i] + first[i]

/-- Word `i` of the stream. -/
def word (key : Key) (i : Nat) : UInt32 :=
  (block key (i / 16))[i % 16]

/-! ## Runs of the stream -/

/-- Appends `count` words from `position` on. `current` is the block of the word before, so that each
block is made once. -/
def pushWords (key : Key) : Nat → Nat → Block → Array UInt32 → Array UInt32
  | 0, _, _, out => out
  | count + 1, position, current, out =>
    let current := if position % 16 = 0 then block key (position / 16) else current
    pushWords key count (position + 1) current (out.push current[position % 16])

/-- The `count` words from `position` on. -/
def words (key : Key) (position count : Nat) : Array UInt32 :=
  pushWords key count position (block key (position / 16)) (.emptyWithCapacity count)

theorem toList_pushWords (key : Key) (count position : Nat) (current : Block) (out : Array UInt32)
    (h : position % 16 ≠ 0 → current = block key (position / 16)) :
    (pushWords key count position current out).toList =
      out.toList ++ (List.range' position count).map (word key) := by
  induction count generalizing position current out with
  | zero => simp [pushWords]
  | succ count ih =>
    have hc : (if position % 16 = 0 then block key (position / 16) else current) =
        block key (position / 16) := by
      split
      · rfl
      · exact h ‹_›
    simp only [pushWords, hc]
    rw [ih]
    · simp [List.range'_succ, word]
    · intro hn
      rw [show (position + 1) / 16 = position / 16 by omega]

/-- A run of the stream is its words, one after the other. -/
theorem toList_words (key : Key) (position count : Nat) :
    (words key position count).toList = (List.range' position count).map (word key) := by
  simp [words, toList_pushWords]

end DenseMatmul.Random
