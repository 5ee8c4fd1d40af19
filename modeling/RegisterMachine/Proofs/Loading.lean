import RegisterMachine.Proofs.Images

/-!
# Loading

An image that is loaded is found in memory byte by byte. The words that were loaded are taken apart
into the bytes of the image again, with a zero behind them if their number is odd, and the words
behind the image are those from before. An image that is too large leaves everything as it was.

* `flatMap_toBytes_words`: the words of an image have its bytes.
* `get_poke_of_le`, `poke_poke`: words that were not written, and words that are written again.
* `loading_copies_the_image`: what a load answers and what it changes.
-/

namespace RegisterMachine

/-! ## Bytes -/

/-- A word has the bytes that it was made of. -/
theorem Word.toBytes_ofBytes (low high : UInt8) : (ofBytes low high).toBytes = [low, high] := by
  have hLow := low.toNat_lt
  have hHigh := high.toNat_lt
  have hLower : (ofBytes low high).toUInt8 = low := by
    apply UInt8.toNat_inj.mp
    rw [UInt16.toNat_toUInt8, toNat_ofBytes]
    omega
  have hUpper : (ofBytes low high / 256).toUInt8 = high := by
    apply UInt8.toNat_inj.mp
    rw [UInt16.toNat_toUInt8, UInt16.toNat_div, toNat_ofBytes]
    change (low.toNat + 256 * high.toNat) / 256 % 256 = high.toNat
    omega
  rw [toBytes, hLower, hUpper]

namespace Image

variable {image : ByteArray} {i : Nat}

theorem byte_of_lt (h : i < image.size) : byte image i = image[i] :=
  dif_pos h

theorem byte_of_le (h : image.size ≤ i) : byte image i = 0 :=
  dif_neg (Nat.not_lt.mpr h)

theorem flatMap_range_pairs {α : Type} (f : Nat → α) (n : Nat) :
    (List.range n).flatMap (fun k => [f (2 * k), f (2 * k + 1)]) = (List.range (2 * n)).map f := by
  induction n with
  | zero => rfl
  | succ n ih =>
    rw [List.range_succ, List.flatMap_append, ih, Nat.mul_succ, List.range_succ, List.range_succ]
    simp

/-- The words of an image have its bytes, and a zero behind them if their number is odd. -/
theorem flatMap_toBytes_words (image : ByteArray) :
    (words image).flatMap Word.toBytes =
      image.data.toList ++ List.replicate (image.size % 2) 0 := by
  have hBytes : (words image).flatMap Word.toBytes =
      (List.range (2 * wordCount image)).map (byte image) := by
    rw [← flatMap_range_pairs, words, List.flatMap_map]
    simp only [word, Word.toBytes_ofBytes]
  have hSize : image.data.toList.length = image.size := rfl
  rw [hBytes]
  apply List.ext_getElem
  · rw [List.length_map, List.length_range, List.length_append, List.length_replicate, hSize,
      wordCount]
    omega
  · intro i hi hi'
    rw [List.getElem_map, List.getElem_range]
    by_cases hInside : i < image.size
    · rw [byte_of_lt hInside, List.getElem_append_left hInside]
      rfl
    · have hOutside : image.size ≤ i := Nat.not_lt.mp hInside
      rw [byte_of_le hOutside, List.getElem_append_right hOutside, List.getElem_replicate]

end Image

/-! ## Words -/

namespace Memory

theorem get_poke_of_le (m : Memory) {ws : List Word} {x : Address} (h : ws.length ≤ x.val) :
    (m.poke 0 ws).get x = m.get x := by
  rw [get_poke, if_neg (by omega)]

/-- Words that are written twice are written. -/
theorem poke_poke (m : Memory) (start : Nat) (ws : List Word) :
    (m.poke start ws).poke start ws = m.poke start ws := by
  ext x
  rw [get_poke, get_poke]
  split <;> rfl

end Memory

namespace Session

variable {σ : Type}

theorem perform_load_of_error (s : Session σ) {image : ByteArray} {e : ImageTooLarge}
    (h : s.load image = .error e) : s.perform (.load image) = s := by
  simp only [perform, h]

/-- Loading the words of an image. -/
theorem load_ofWords (s : Session σ) {ws : List Word} (h : ws.length ≤ 65535) :
    s.load (Image.ofWords ws) =
      .ok (ws.length, (s.edit { s.machine.toConfig with
        memory := s.machine.memory.poke 0 ws }).note (.loaded ws.length)) := by
  have hSize : (Image.ofWords ws).size ≤ 131070 := by
    rw [← Image.wordCount_le_iff, Image.wordCount_ofWords]
    exact h
  rw [load_of_le s hSize, Image.words_ofWords, Image.wordCount_ofWords]

/-- Every image is loaded or refused by its size. One that is loaded is found in memory from address
zero on, byte by byte, and nothing else is changed; to load it again changes nothing more. One that
is refused changes nothing at all. -/
theorem loading_copies_the_image (s : Session σ) (image : ByteArray) :
    let n := (image.size + 1) / 2
    (image.size ≤ 131070 →
      ∃ t, s.load image = .ok (n, t) ∧
        (t.machine.memory.slice 0 n).flatMap Word.toBytes =
          image.data.toList ++ List.replicate (image.size % 2) 0 ∧
        (∀ x : Address, n ≤ x.val → t.machine.memory.get x = s.machine.memory.get x) ∧
        t.machine = { s.machine with memory := t.machine.memory } ∧
        t.watch = s.watch ∧ t.log = s.log.add (.loaded n) ∧
        t.load image = .ok (n, t.note (.loaded n))) ∧
      (131070 < image.size → s.load image = .error ⟨n⟩ ∧ s.perform (.load image) = s) ∧
      ∀ ws : List Word, ws.length ≤ 65535 →
        ∃ t, s.load (Image.ofWords ws) = .ok (ws.length, t) ∧
          t.machine.memory.slice 0 ws.length = ws ∧
          ∀ x : Address, ws.length ≤ x.val → t.machine.memory.get x = s.machine.memory.get x := by
  intro n
  have hLength : (Image.words image).length = n := Image.length_words image
  refine ⟨fun hSize => ?_, fun hSize => ?_, fun ws hWords => ?_⟩
  · have hFits : 0 + (Image.words image).length ≤ 65535 := by omega
    refine ⟨_, s.load_of_le hSize, ?_, fun x hx => ?_, rfl, rfl, rfl, ?_⟩
    · rw [← hLength]
      exact (congrArg _ (Memory.slice_poke _ hFits)).trans (Image.flatMap_toBytes_words image)
    · exact Memory.get_poke_of_le _ (hLength ▸ hx)
    · rw [load_of_le _ hSize]
      simp only [note, edit, Memory.poke_poke]
      rfl
  · have hRefused := s.load_of_not_le (Nat.not_le.mpr hSize)
    exact ⟨hRefused, s.perform_load_of_error hRefused⟩
  · refine ⟨_, s.load_ofWords hWords, ?_, fun x => Memory.get_poke_of_le _⟩
    exact Memory.slice_poke _ (by omega)

/-- Three bytes are two words, of which the second one has a zero as its upper byte; the word behind
them stays. -/
theorem loading_copies_the_image_odd :
    let image : ByteArray := ⟨#[1, 2, 3]⟩
    let s : Session Unit :=
      { machine := .boot (Memory.zero.poke 0 [7, 65535, 9])
        watch := ()
        log := { threshold := none } }
    image.size ≤ 131070 ∧
      ∃ t, s.load image = .ok (2, t) ∧
        (t.machine.memory.slice 0 2).flatMap Word.toBytes = [1, 2, 3, 0] ∧
        t.machine.memory.get 2 = 9 := by
  intro image s
  have hSize : image.size ≤ 131070 := by decide
  obtain ⟨t, hLoad, hBytes, hRest, -⟩ := (s.loading_copies_the_image image).1 hSize
  have hCount : (image.size + 1) / 2 = 2 := by decide
  rw [hCount] at hLoad hBytes
  exact ⟨hSize, t, hLoad, hBytes.trans (by decide), (hRest 2 (by decide)).trans (by decide +kernel)⟩

end Session

end RegisterMachine
