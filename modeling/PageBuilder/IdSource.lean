/-!
Reproducible identifiers. A 64 bit seed is stretched to a key, the key drives the ChaCha stream
with twelve rounds, and every word of the stream gives at most one character.
-/

namespace PageBuilder

abbrev ChaChaBlock := Vector UInt32 16

namespace ChaChaBlock

def rotateLeft (word : UInt32) (count : UInt32) : UInt32 :=
  (word <<< count) ||| (word >>> (32 - count))

/-- Adds, mixes and turns two words. -/
def halfQuarter (block : ChaChaBlock) (target source mixed : Fin 16) (turn : UInt32) :
    ChaChaBlock :=
  let block := block.set target (block[target] + block[source])
  block.set mixed (rotateLeft (block[mixed] ^^^ block[target]) turn)

def quarter (a b c d : Fin 16) (block : ChaChaBlock) : ChaChaBlock :=
  let block := block.halfQuarter a b d 16
  let block := block.halfQuarter c d b 12
  let block := block.halfQuarter a b d 8
  block.halfQuarter c d b 7

def doubleRound (block : ChaChaBlock) : ChaChaBlock :=
  block
    |> quarter 0 4 8 12 |> quarter 1 5 9 13 |> quarter 2 6 10 14 |> quarter 3 7 11 15
    |> quarter 0 5 10 15 |> quarter 1 6 11 12 |> quarter 2 7 8 13 |> quarter 3 4 9 14

def rounds : Nat → ChaChaBlock → ChaChaBlock
  | 0, block => block
  | count + 1, block => rounds count block.doubleRound

/-- Twelve rounds, two at a time, and the start added back. -/
def scramble (start : ChaChaBlock) : ChaChaBlock :=
  Vector.zipWith (· + ·) (rounds 6 start) start

end ChaChaBlock

structure IdSource where
  key : Vector UInt32 8
  counter : UInt64
  words : List UInt32

namespace IdSource

def stretch (state : UInt64) : UInt64 := state * 6364136223846793005 + 11634580027462260723

/-- A word is turned by the highest bits of the state it comes from. -/
def keyWord (state : UInt64) : UInt32 :=
  let mixed := (((state >>> 18) ^^^ state) >>> 27).toUInt32
  let turn := (state >>> 59).toUInt32
  if turn = 0 then mixed else (mixed >>> turn) ||| (mixed <<< (32 - turn))

def keyWords : Nat → UInt64 → List UInt32
  | 0, _ => []
  | count + 1, seed => keyWord (stretch seed) :: keyWords count (stretch seed)

theorem key_words_length (count : Nat) (seed : UInt64) :
    (keyWords count seed).length = count := by
  induction count generalizing seed with
  | zero => rfl
  | succ count ih => simp [keyWords, ih]

def ofSeed (seed : UInt64) : IdSource :=
  ⟨⟨(keyWords 8 seed).toArray, by simp [key_words_length]⟩, 0, []⟩

def start (key : Vector UInt32 8) (counter : UInt64) : ChaChaBlock :=
  #v[0x61707865, 0x3320646e, 0x79622d32, 0x6b206574,
    key[0], key[1], key[2], key[3], key[4], key[5], key[6], key[7],
    counter.toUInt32, (counter >>> 32).toUInt32, 0, 0]

def nextWord (source : IdSource) : UInt32 × IdSource :=
  match source.words with
  | word :: rest => (word, { source with words := rest })
  | [] =>
      let block := (start source.key source.counter).scramble
      (block[0], ⟨source.key, source.counter + 1, block.toList.tail⟩)

def alphabet : Array Char :=
  "ABCDEFGHIJKLMNOPQRSTUVWXYZabcdefghijklmnopqrstuvwxyz0123456789".toList.toArray

/-- The stream repeats after this many words, so what it does not give by then it never gives. -/
def period : Nat := 1 <<< 68

/-- The six highest bits of a word pick a character; a word past the alphabet is passed over. -/
def nextChar (source : IdSource) : Nat → Char × IdSource
  | 0 => ('A', source)
  | tries + 1 =>
      let (word, source) := source.nextWord
      match alphabet[(word >>> 26).toNat]? with
      | some char => (char, source)
      | none => nextChar source tries

def idLength : Nat := 7

def nextChars (source : IdSource) : Nat → List Char × IdSource
  | 0 => ([], source)
  | count + 1 =>
      let (char, source) := source.nextChar period
      let (rest, source) := nextChars source count
      (char :: rest, source)

def next (source : IdSource) : String × IdSource :=
  let (chars, source) := source.nextChars idLength
  (String.ofList chars, source)

def nextFreeWithin (source : IdSource) (isTaken : String → Bool) : Nat → String × IdSource
  | 0 => source.next
  | tries + 1 =>
      let (id, source) := source.next
      if isTaken id then nextFreeWithin source isTaken tries else (id, source)

def nextFree (source : IdSource) (isTaken : String → Bool) : String × IdSource :=
  source.nextFreeWithin isTaken period

end IdSource

end PageBuilder
