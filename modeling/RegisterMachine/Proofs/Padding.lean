import RegisterMachine.Proofs.Reports
import RegisterMachine.Proofs.Stops

/-!
# Padded images

Memory is zero where no image was loaded, so zeros at the end of an image make no difference to the
machine that holds it. They may complete the last word, they may be read, overwritten or executed:
the machine is the same. All that tells a padded image from the image itself is its length, which
is noted when it is loaded.

* `ofImage_padded`: the machine of a padded image.
* `records_padded`: what is noted of a padded image.
* `padding_is_invisible`: two runs from the command line.
-/

namespace RegisterMachine

namespace Image

variable (image : ByteArray) (z i k : Nat)

/-- An image with zeros at its end. -/
def padded (image : ByteArray) (z : Nat) : ByteArray :=
  image ++ (List.replicate z 0).toByteArray

@[simp]
theorem size_padded : (padded image z).size = image.size + z := by
  simp [padded]

theorem wordCount_padded : wordCount (padded image z) = (image.size + z + 1) / 2 := by
  rw [wordCount, size_padded]

/-- Past its end, an image is read as if zeros stood there. -/
theorem byte_padded : byte (padded image z) i = byte image i := by
  unfold byte
  by_cases hInside : i < image.size
  · have hPadded : i < (padded image z).size := by
      rw [size_padded]
      omega
    rw [dif_pos hInside, dif_pos hPadded]
    exact ByteArray.getElem_append_left hInside
  · rw [dif_neg hInside]
    split
    · next hPadded =>
      have hZero := ByteArray.getElem_append_right (Nat.not_lt.mp hInside) (h := hPadded)
      exact hZero.trans (by simp)
    · rfl

theorem word_padded : word (padded image z) k = word image k := by
  rw [word, byte_padded, byte_padded, word]

/-- The words of an image, and zeros behind them. -/
theorem getD_words : (words image).getD k 0 = word image k := by
  rw [List.getD_eq_getElem?_getD]
  by_cases hk : k < (words image).length
  · rw [List.getElem?_eq_getElem hk, Option.getD_some, getElem_words]
  · have hCount : wordCount image ≤ k := by
      rw [← length_words]
      exact Nat.not_lt.mp hk
    have hEnd (i : Nat) (hi : 2 * k ≤ i) : byte image i = 0 := by
      unfold wordCount at hCount
      exact dif_neg (by omega)
    rw [List.getElem?_eq_none (Nat.not_lt.mp hk), Option.getD_none, word, hEnd _ (Nat.le_refl _),
      hEnd _ (Nat.le_succ _)]
    rfl

end Image

/-- A padded image makes the same machine. -/
theorem Machine.ofImage_padded (image : ByteArray) (z : Nat) :
    ofImage (Image.padded image z) = ofImage image := by
  unfold ofImage
  congr 1
  ext x
  rw [Memory.get_poke_zero, Memory.get_poke_zero, Image.getD_words, Image.getD_words,
    Image.word_padded]

/-! ## What is noted -/

/-- A record with another number of words, if it is about an image. -/
def Record.recount (n : Nat) : Record → Record
  | loaded _ => loaded n
  | imageRead _ path => imageRead n path
  | r => r

theorem Record.keeps_recount (threshold : Option Level) (n : Nat) (r : Record) :
    Log.keeps threshold (r.recount n) = Log.keeps threshold r := by
  cases r <;> rfl

theorem recount_annotated (n : Nat) (es : List Executed)
    (failures : List (Option Console.Failure)) :
    (annotated es failures).map (Record.recount n) = annotated es failures := by
  have hOwn (e : Executed) (failure : Option Console.Failure) :
      (e.record :: failure.toList.map .consoleFailed).map (Record.recount n) =
        e.record :: failure.toList.map .consoleFailed := by
    cases failure <;> rfl
  rw [annotated, List.map_flatten, List.map_zipWith]
  simp only [hOwn]

theorem Ending.map_recount {rs : List Record} (n : Nat) (h : Ending rs) :
    rs.map (Record.recount n) = rs := by
  cases h <;> rfl

namespace CommandLine

theorem recount_finishing (n : Nat) (answer : Except Fault (Option Halt)) (steps : Nat) :
    (finishing answer steps).map (Record.recount n) = finishing answer steps := by
  unfold finishing
  split <;> rfl

/-- A padded image has the same noted as the image, but for its number of words. -/
theorem Request.records_padded (request : Request) (image : ByteArray) (z : Nat)
    (failures : List (Option Console.Failure)) :
    request.records (Image.padded image z) failures =
      (request.records image failures).map (Record.recount ((image.size + z + 1) / 2)) := by
  have hStop (k : Nat) (stopped : Bool) (c : Config) :
      (if stopped then (c.after k).closing else []).map
          (Record.recount ((image.size + z + 1) / 2)) =
        if stopped then (c.after k).closing else [] := by
    split
    · exact (ending_closing _).map_recount _
    · rfl
  unfold records course
  dsimp only
  rw [Machine.ofImage_padded, List.map_append, List.map_append, List.map_append,
    recount_annotated, hStop, recount_finishing, opening, Image.wordCount_padded]
  rfl

/-- Zeros at the end of an image that still fits make no difference to what the command line
answers, whatever the arguments, the input and the level of the log, but for the number of words
that is noted of the image. The program of the padded image stops if and only if that of the image
does, and in the same way. -/
theorem padding_is_invisible {args : List String} {request : Request} {image : ByteArray} {z : Nat}
    {read read' : String → Reading} (hArgs : Command.ofArguments args = .ok (.run request))
    (hSize : image.size + z ≤ 131070) (hFile : read request.image = .contents image)
    (hFile' : read' request.image = .contents (Image.padded image z)) (input : List UInt8)
    (threshold : Option Level) :
    ∃ r r', answer args read input threshold = .report r ∧
      answer args read' input threshold = .report r' ∧
      (Answer.report r').exitCode = (Answer.report r).exitCode ∧ r'.output = r.output ∧
      r'.errorText = r.errorText ∧
      r'.log.toList = r.log.toList.map (Record.recount ((image.size + z + 1) / 2)) ∧
      ∀ k stop, (Machine.ofImage (Image.padded image z)).StopsAfter k stop ↔
        (Machine.ofImage image).StopsAfter k stop := by
  refine ⟨_, _, by rw [answer, hArgs], by rw [answer, hArgs], ?_⟩
  have hBound (n : Nat) (h : request.limit = some n) : n < UInt64.size := lt_of_limit hArgs h
  have hPadded : (Image.padded image z).size ≤ 131070 := by
    rw [Image.size_padded]
    exact hSize
  have hCourse : request.course (Image.padded image z) = request.course image := by
    rw [Request.course, Machine.ofImage_padded, Request.course]
  rw [hFile, hFile']
  have h := Request.reportOf_request hBound (Nat.le_of_add_right_le hSize) input threshold
  have h' := Request.reportOf_request hBound hPadded input threshold
  rw [hCourse] at h'
  have hFailure := h'.failure
  rw [Machine.ofImage_padded, ← h.failure] at hFailure
  refine ⟨?_, h'.output.trans h.output.symm, ?_, ?_, fun k stop => ?_⟩
  · rw [Answer.exitCode, hFailure, Answer.exitCode]
  · rw [Report.errorText, hFailure, Report.errorText]
  · rw [h'.log, h.log, Request.records_padded, List.filter_map]
    congr 1
    exact List.filter_congr fun r _ => Record.keeps_recount threshold _ r
  · rw [Machine.ofImage_padded]

/-- An image that ends in the middle of a word and of an instruction. Three zeros complete both. -/
theorem padding_is_invisible_half_word :
    let image : ByteArray := ⟨#[6, 0, 0, 0, 5]⟩
    let read (_ : String) : Reading := .contents image
    let read' (_ : String) : Reading := .contents (Image.padded image 3)
    let args := ["--trace", "p.bin"]
    Command.ofArguments args = .ok (.run ⟨"p.bin", .trace, none⟩) ∧ image.size + 3 ≤ 131070 ∧
      ∃ r r', answer args read [] (some .info) = .report r ∧
        answer args read' [] (some .info) = .report r' ∧ r'.output = r.output ∧
        r'.log.toList = r.log.toList.map (Record.recount 4) := by
  intro image read read' args
  have hArgs : Command.ofArguments args = .ok (.run ⟨"p.bin", .trace, none⟩) := by decide +kernel
  have hSize : image.size + 3 ≤ 131070 := by decide
  have hFile : read "p.bin" = .contents image := rfl
  have hFile' : read' "p.bin" = .contents (Image.padded image 3) := rfl
  obtain ⟨r, r', hReport, hReport', -, hOutput, -, hLog, -⟩ :=
    padding_is_invisible hArgs hSize hFile hFile' [] (some .info)
  have hCount : (image.size + 3 + 1) / 2 = 4 := by decide
  rw [hCount] at hLog
  exact ⟨hArgs, hSize, r, r', hReport, hReport', hOutput, hLog⟩

end CommandLine

end RegisterMachine
