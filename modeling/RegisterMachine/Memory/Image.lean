import RegisterMachine.Memory

/-!
# Program images

A program image is a byte string whose bytes are taken in pairs, the lower byte of each word first.
A single byte at the end is the lower byte of a last word. Loading an image writes its words into
memory from address zero on and leaves the rest of memory as it is; an image with more words than
memory is refused.
-/

namespace RegisterMachine

namespace Image

def wordCount (bytes : ByteArray) : Nat :=
  (bytes.size + 1) / 2

/-- The byte at a position, and zero past the end. -/
def byte (bytes : ByteArray) (i : Nat) : UInt8 :=
  if h : i < bytes.size then bytes[i] else 0

def word (bytes : ByteArray) (i : Nat) : Word :=
  Word.ofBytes (byte bytes (2 * i)) (byte bytes (2 * i + 1))

def words (bytes : ByteArray) : List Word :=
  (List.range (wordCount bytes)).map (word bytes)

@[simp]
theorem length_words (bytes : ByteArray) : (words bytes).length = wordCount bytes := by
  simp [words]

theorem getElem_words (bytes : ByteArray) (i : Nat) (h : i < (words bytes).length) :
    (words bytes)[i] = word bytes i := by
  simp [words]

def ofWords (ws : List Word) : ByteArray :=
  (ws.flatMap Word.toBytes).toByteArray

end Image

/-- An image does not fit into memory. -/
structure ImageTooLarge where
  words : Nat
deriving DecidableEq

def ImageTooLarge.message (e : ImageTooLarge) : String :=
  "image is " ++ toString e.words ++ " words, but memory only holds " ++ toString Memory.capacity

/-- Writes an image into memory from address zero on, and tells how many words it has written. -/
def Memory.load (m : Memory) (image : ByteArray) : Except ImageTooLarge (Nat × Memory) :=
  let words := Image.wordCount image
  if words ≤ Memory.capacity then
    .ok (words, m.poke 0 (Image.words image))
  else
    .error { words }

end RegisterMachine
