import DenseMatmul.Buffer
import DenseMatmul.Random.ChaCha
import DenseMatmul.Random.Interval
import DenseMatmul.Random.Seed
import DenseMatmul.Word
/-!
# Seeded matrices

A generator draws matrices from one stream of numbers that its seed and interval fix. Each number
takes one word, so where a draw starts depends only on how much was drawn before.
-/

namespace DenseMatmul

/-- A place in a stream of numbers. -/
structure Generator where
  key : Random.Key
  interval : Random.Interval
  position : Nat

namespace Generator

/-- The seed used where none is given. -/
def standardSeed : UInt64 := 7

def ofSeed (seed : UInt64) (interval : Random.Interval) : Generator :=
  { key := Random.keyOfSeed seed, interval, position := 0 }

/-- Numbers from zero up to but not including one. -/
def seeded (seed : UInt64) : Generator := ofSeed seed .unit

/-- Number `i` of the stream, counted from its start. -/
def number (g : Generator) (i : Nat) : Single := g.interval.sample (Random.word g.key i)

/-- The next `length` numbers, and the generator after them. -/
def draw (g : Generator) (length : Nat) : Buffer × Generator :=
  ((Random.words g.key g.position length).map g.interval.sample,
    { g with position := g.position + length })

theorem toList_draw (g : Generator) (length : Nat) :
    (g.draw length).1.toList = (List.range' g.position length).map g.number := by
  simp [draw, Random.toList_words, number, Function.comp_def]

/-- Drawing twice draws what one draw of both lengths does. -/
theorem draw_append (g : Generator) (x y : Nat) :
    (g.draw x).1 ++ ((g.draw x).2.draw y).1 = (g.draw (x + y)).1 := by
  rw [← Array.toList_inj, Array.toList_append, toList_draw, toList_draw, toList_draw,
    ← List.range'_append_1, List.map_append]
  rfl

/-- The next matrix, row by row. Its size must be a word. -/
def drawMatrix (g : Generator) (rows cols : Nat) : Except Fault (Buffer × Generator) :=
  if rows * cols < wordLimit then .ok (g.draw (rows * cols)) else .error .wordOverflow

end Generator

end DenseMatmul
