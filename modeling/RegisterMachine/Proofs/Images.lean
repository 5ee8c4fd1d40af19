import RegisterMachine.Proofs.Operations

/-!
# Images in memory

A new machine that is loaded with an image holds the words of the image from address zero on, and
zeros behind them. An image that was made of words has these words again.

* `load_of_le`, `load_of_not_le`: an image is loaded if it has at most 131070 bytes.
* `words_ofWords`: the words of an image that was made of words.
* `get_poke_zero`, `slice_poke_within`: what is found in memory.
-/

namespace RegisterMachine

namespace Image

theorem wordCount_le_iff {image : ByteArray} :
    wordCount image ≤ Memory.capacity ↔ image.size ≤ 131070 := by
  unfold wordCount Memory.capacity
  omega

theorem byte_toByteArray (bytes : List UInt8) (k : Nat) :
    byte bytes.toByteArray k = bytes.getD k 0 := by
  unfold byte
  rw [List.getD_eq_getElem?_getD]
  by_cases hk : k < bytes.length
  · rw [dif_pos (by rwa [List.size_toByteArray]), List.getElem_toByteArray,
      List.getElem?_eq_getElem hk, Option.getD_some]
  · rw [dif_neg (by rwa [List.size_toByteArray]), List.getElem?_eq_none (Nat.not_lt.mp hk),
      Option.getD_none]

theorem getD_flatMap_toBytes (ws : List Word) (k : Nat) :
    (ws.flatMap Word.toBytes).getD (2 * k) 0 = (ws.getD k 0).toUInt8 ∧
      (ws.flatMap Word.toBytes).getD (2 * k + 1) 0 = (ws.getD k 0 / 256).toUInt8 := by
  induction ws generalizing k with
  | nil => simp
  | cons w ws ih =>
    cases k with
    | zero => exact ⟨rfl, rfl⟩
    | succ k => exact ih k

theorem length_flatMap_toBytes (ws : List Word) :
    (ws.flatMap Word.toBytes).length = 2 * ws.length := by
  induction ws with
  | nil => rfl
  | cons w ws ih =>
    rw [List.flatMap_cons, List.length_append, ih, List.length_cons]
    change 2 + 2 * ws.length = _
    omega

theorem wordCount_ofWords (ws : List Word) : wordCount (ofWords ws) = ws.length := by
  rw [wordCount, ofWords, List.size_toByteArray, length_flatMap_toBytes]
  omega

/-- An image that was made of words has these words. -/
theorem words_ofWords (ws : List Word) : words (ofWords ws) = ws := by
  apply List.ext_getElem
  · rw [length_words, wordCount_ofWords]
  · intro k hk hk'
    obtain ⟨hLow, hHigh⟩ := getD_flatMap_toBytes ws k
    rw [getElem_words, word, ofWords, byte_toByteArray, byte_toByteArray, hLow, hHigh,
      Word.ofBytes_toBytes, List.getD_eq_getElem?_getD, List.getElem?_eq_getElem hk',
      Option.getD_some]

end Image

namespace Memory

variable {ws : List Word}

/-- What is found in a memory that holds words from address zero on and nothing else. -/
theorem get_poke_zero (ws : List Word) (x : Address) :
    (zero.poke 0 ws).get x = ws.getD x.val 0 := by
  rw [get_poke, Nat.zero_add, Nat.sub_zero, get_zero]
  split
  · rfl
  · next h =>
    rw [List.getD_eq_getElem?_getD, List.getElem?_eq_none (by omega), Option.getD_none]

/-- Words that are stored together are found together. -/
theorem slice_poke_within (m : Memory) {start count : Nat} (hEnd : start + count ≤ ws.length)
    (hFits : ws.length ≤ 65535) :
    (m.poke 0 ws).slice start count = (ws.drop start).take count := by
  apply List.ext_getElem
  · rw [length_slice, List.length_take, List.length_drop]
    omega
  · intro k hk hk'
    obtain ⟨hx, hGet⟩ := getElem_slice (m.poke 0 ws) start count k hk
    have hLength : start + k < ws.length := by
      rw [List.length_take, List.length_drop] at hk'
      omega
    rw [hGet, get_poke, Nat.zero_add, if_pos ⟨Nat.zero_le _, hLength⟩, List.getElem_take,
      List.getElem_drop, Nat.sub_zero, List.getD_eq_getElem?_getD,
      List.getElem?_eq_getElem hLength, Option.getD_some]

end Memory

/-- A new machine whose memory holds an image from address zero on and nothing else. -/
def Machine.ofImage (image : ByteArray) : Machine :=
  .boot (Memory.zero.poke 0 (Image.words image))

namespace Session

variable {σ : Type} (s : Session σ) {image : ByteArray}

theorem load_of_le (hSize : image.size ≤ 131070) :
    s.load image = .ok (Image.wordCount image, (s.edit { s.machine.toConfig with
      memory := s.machine.memory.poke 0 (Image.words image) }).note
        (.loaded (Image.wordCount image))) :=
  load_eq_ok_iff.mpr ⟨_, if_pos (Image.wordCount_le_iff.mpr hSize), rfl⟩

theorem load_of_not_le (hSize : ¬image.size ≤ 131070) :
    s.load image = .error ⟨Image.wordCount image⟩ := by
  unfold load Machine.load Memory.load
  rw [if_neg (mt Image.wordCount_le_iff.mp hSize)]
  rfl

end Session

end RegisterMachine
