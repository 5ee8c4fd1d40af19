import RegisterMachine.Proofs.ArgumentGroups

/-!
# The order of arguments

What a request asks for can be written in any order, and a limit of steps in many ways: with its
numeral behind the option or attached to it, with a plus sign and with zeros in front. A list of
arguments that asks for too much, for too little or for things that exclude each other is refused
in every order, and no file is opened for it.

* `ofArguments_of_written`: all ways to write a request are read as that request.
* `exists_error_of_faulty`: what is refused.
* `order_of_arguments_does_not_matter`: both of these, and what is answered.
-/

namespace RegisterMachine.CommandLine

/-! ## Ways to write a request -/

/-- The groups that ask for a way of watching. -/
def Mode.groups : Mode → List Group
  | .silent => []
  | .trace => [.trace]
  | .step => [.step]

/-- The groups that ask for a limit of steps. -/
inductive WritesLimit : Option Nat → List Group → Prop where
  | none : WritesLimit none []
  | some {numeral : String} {n : Nat} (attached : Bool) (hNumeral : Numeral numeral n)
      (hBound : n < UInt64.size) : WritesLimit (some n) [.limit numeral attached]

/-- Arguments that ask for all that is in a request, in any order. -/
def Request.Written (request : Request) (args : List String) : Prop :=
  ∃ limits gs : List Group, WritesLimit request.limit limits ∧
    gs.Perm (.image request.image :: (request.mode.groups ++ limits)) ∧
    args = gs.flatMap Group.words

theorem readable_of_number? {numeral : String} {n : Nat} (h : number? numeral = some n) :
    Argument.ofString numeral = .value numeral := by
  obtain ⟨⟨digits, hText, hNonempty, hDigits, -⟩, -⟩ := number?_eq_some_iff.mp h
  apply Argument.ofString_of_head?_ne
  rcases hText with hText | hText
  · cases digits with
    | nil => exact absurd rfl hNonempty
    | cons c digits =>
      rw [hText, List.head?_cons]
      rintro ⟨⟩
      exact absurd (hDigits '-' List.mem_cons_self) (by decide)
  · rw [hText, List.head?_cons]
    decide

section

variable {image : String} {mode : Mode} {limit : Option Nat} {limits : List Group}

theorem readable_and_sound_of_mem (hName : image ≠ "") (hPlain : image.toList.head? ≠ some '-')
    (hLimits : WritesLimit limit limits) (g : Group)
    (h : g ∈ .image image :: (mode.groups ++ limits)) : g.Readable ∧ g.Sound := by
  have hImage : (Group.image image).Readable := Argument.ofString_of_head?_ne hPlain
  rcases List.mem_cons.mp h with rfl | h
  · exact ⟨hImage, hName⟩
  rcases List.mem_append.mp h with h | h
  · cases mode with
    | silent => cases h
    | trace | step =>
      cases List.mem_singleton.mp h
      exact ⟨trivial, trivial⟩
  · cases hLimits with
    | none => cases h
    | some attached hNumeral hBound =>
      cases List.mem_singleton.mp h
      have hNumber := number?_eq_some_iff.mpr ⟨hNumeral, hBound⟩
      refine ⟨?_, Option.isSome_of_eq_some hNumber⟩
      cases attached with
      | true => trivial
      | false => exact readable_of_number? hNumber

theorem nodup_slots (hLimits : WritesLimit limit limits) :
    ((.image image :: (mode.groups ++ limits)).map Group.slot).Nodup := by
  cases mode <;> cases hLimits <;> simp [Mode.groups, Group.slot]

/-- What the groups of a request give is that request. -/
theorem finish_groups (hLimits : WritesLimit limit limits) :
    ((.image image :: (mode.groups ++ limits)).foldl Given.put {}).finish =
      .ok (.run { image, mode, limit }) := by
  cases hLimits with
  | none => cases mode <;> rfl
  | some attached hNumeral hBound =>
    have hNumber := number?_eq_some_iff.mpr ⟨hNumeral, hBound⟩
    rw [← hNumber]
    cases mode <;> rfl

end

/-- All ways to write a request are read as that request. -/
theorem ofArguments_of_written {request : Request} {args : List String}
    (hName : request.image ≠ "") (hPlain : request.image.toList.head? ≠ some '-')
    (h : request.Written args) : Command.ofArguments args = .ok (.run request) := by
  obtain ⟨limits, gs, hLimits, hPerm, rfl⟩ := h
  have hGroups (g : Group) (hg : g ∈ gs) : g.Readable ∧ g.Sound :=
    readable_and_sound_of_mem hName hPlain hLimits g (hPerm.mem_iff.mp hg)
  have hNodup : (gs.map Group.slot).Nodup :=
    (hPerm.map Group.slot).nodup_iff.mpr (nodup_slots hLimits)
  have hAccepted : gs.foldlM Given.accept {} = .ok (gs.foldl Given.put {}) :=
    Given.foldlM_accept_eq_ok_iff.mpr
      ⟨fun g hg => ⟨(hGroups g hg).2, Given.has_nothing g.slot⟩, hNodup, rfl⟩
  rw [Command.ofArguments, Given.read_flatMap_words fun g hg => (hGroups g hg).1, hAccepted,
    Given.foldl_put_of_perm hPerm hNodup]
  exact finish_groups hLimits

/-! ## Faulty arguments -/

/-- The name of an option. -/
def Argument.name? : Argument → Option String
  | .long name _ => some name
  | .short letter => some (String.singleton letter)
  | .value _ | .endOfOptions => none

/-- The arguments that stand for images: they do not look like options, and they are not the numeral
that the option in front of them waits for. -/
def positionals (awaited : Bool) : List String → List String
  | [] => []
  | arg :: args =>
    if awaited then
      positionals false args
    else if arg.toList.head? = some '-' ∧ arg ≠ "-" then
      positionals (arg = "--max-steps") args
    else
      arg :: positionals false args

/-- What is wrong with arguments: they ask for two ways of watching, an option is given twice, a
limit of steps lacks its numeral or is too large, or there is not just one image. -/
inductive Faulty (args : List String) : Prop where
  | modes (hStep : "--step" ∈ args) (hTrace : "--trace" ∈ args)
  | repeated (h : ¬(args.filterMap fun arg => (Argument.ofString arg).name?).Nodup)
  | numeral (before after : List String) (hArgs : args = before ++ "--max-steps" :: after)
      (hBad : ∀ text rest n, after = text :: rest → Numeral text n → UInt64.size ≤ n)
  | attached (text : String) (hText : "--max-steps=" ++ text ∈ args)
      (hBad : ∀ n, Numeral text n → UInt64.size ≤ n)
  | images (h : (positionals false args).length ≠ 1)

/-! ## Accepted arguments -/

namespace Group

/-- The arguments that the words of a group stand for. -/
def arguments : Group → List Argument
  | image text => [.value text]
  | trace => [.long "trace" none]
  | step => [.long "step" none]
  | limit numeral true => [.long "max-steps" (some numeral)]
  | limit numeral false => [.long "max-steps" none, .value numeral]

theorem map_words {g : Group} (h : g.Readable) : g.words.map Argument.ofString = g.arguments := by
  cases g with
  | image text => exact congrArg (fun a => [a]) h
  | trace | step => rfl
  | limit numeral attached =>
    cases attached with
    | true => exact congrArg (fun a => [a]) (Argument.ofString_attached numeral)
    | false => exact congrArg (fun a => [Argument.long "max-steps" none, a]) h

end Group

/-- The name of the option that fills a slot. -/
def Slot.option? : Slot → Option String
  | .image => none
  | .trace => some "trace"
  | .step => some "step"
  | .limit => some "max-steps"

theorem Slot.option?_inj {slot slot' : Slot} (h : slot.option? = slot'.option?) : slot = slot' := by
  cases slot <;> cases slot' <;> simp [option?] at h ⊢

/-- Groups that make up a request. -/
structure Accepted (gs : List Group) : Prop where
  readable : ∀ g ∈ gs, g.Readable
  sound : ∀ g ∈ gs, g.Sound
  nodup : (gs.map Group.slot).Nodup
  image : Slot.image ∈ gs.map Group.slot
  modes : ¬(Slot.trace ∈ gs.map Group.slot ∧ Slot.step ∈ gs.map Group.slot)

theorem exists_accepted {args : List String} {command : Command}
    (hPlain : ∀ arg ∈ args, ¬(Argument.ofString arg).diverts)
    (h : Command.ofArguments args = .ok command) :
    ∃ gs, Accepted gs ∧ args = gs.flatMap Group.words := by
  obtain ⟨gs, rfl, hReadable⟩ := grouped_of_read hPlain h
  rw [Command.ofArguments, Given.read_flatMap_words hReadable] at h
  obtain ⟨given, hAccept, hFinish⟩ := bind_eq_ok h
  obtain ⟨hGroups, hNodup, rfl⟩ := Given.foldlM_accept_eq_ok_iff.mp hAccept
  obtain ⟨hImage, hModes⟩ := Given.has_of_finish hFinish
  have hSound (g : Group) (hg : g ∈ gs) : g.Sound := (hGroups g hg).1
  have hMem (slot : Slot) : slot ∈ gs.map Group.slot ↔
      (gs.foldl Given.put {}).has slot = true := by
    rw [← Bool.not_eq_false, Given.has_foldl_put_eq_false_iff hSound, Given.has_nothing]
    simp
  refine ⟨gs, ⟨hReadable, hSound, hNodup, (hMem _).mpr hImage, ?_⟩, rfl⟩
  rw [hMem, hMem]
  exact hModes

namespace Accepted

variable {gs : List Group}

theorem map_words (h : Accepted gs) :
    (gs.flatMap Group.words).map Argument.ofString = gs.flatMap Group.arguments := by
  rw [List.map_flatMap]
  exact List.flatMap_congr fun g hg => Group.map_words (h.readable g hg)

/-- The options among the arguments are those of the slots that are filled. -/
theorem filterMap_name? (h : Accepted gs) :
    ((gs.flatMap Group.words).filterMap fun arg => (Argument.ofString arg).name?) =
      (gs.map Group.slot).filterMap Slot.option? := by
  have hGroup (g : Group) : g.arguments.filterMap Argument.name? = g.slot.option?.toList := by
    cases g with
    | limit numeral attached => cases attached <;> rfl
    | image | trace | step => rfl
  have hArguments : ((gs.flatMap Group.words).filterMap fun arg => (Argument.ofString arg).name?) =
      (gs.flatMap Group.arguments).filterMap Argument.name? := by
    rw [← h.map_words, List.filterMap_map]
    rfl
  rw [hArguments, List.filterMap_flatMap, List.filterMap_map, List.filterMap_eq_flatMap_toList]
  simp only [hGroup, Function.comp_apply]

theorem nodup_names (h : Accepted gs) :
    ((gs.flatMap Group.words).filterMap fun arg => (Argument.ofString arg).name?).Nodup := by
  rw [h.filterMap_name?]
  refine h.nodup.filterMap fun slot slot' name hName hName' => Slot.option?_inj ?_
  rw [Option.mem_def.mp hName, Option.mem_def.mp hName']

/-- An option fills its slot. -/
theorem slot_of_name? (h : Accepted gs) {arg : String} (hArg : arg ∈ gs.flatMap Group.words)
    {slot : Slot} {name : String} (hName : (Argument.ofString arg).name? = some name)
    (hOption : slot.option? = some name) : slot ∈ gs.map Group.slot := by
  have hMem : name ∈ (gs.map Group.slot).filterMap Slot.option? := by
    rw [← h.filterMap_name?]
    exact List.mem_filterMap.mpr ⟨arg, hArg, hName⟩
  obtain ⟨slot', hSlot, hOption'⟩ := List.mem_filterMap.mp hMem
  rw [Slot.option?_inj (hOption.trans hOption'.symm)]
  exact hSlot

end Accepted

/-- Behind the option for a limit stands the numeral of its group. -/
theorem exists_limit_of_append {gs : List Group} {before after : List Argument}
    (h : gs.flatMap Group.arguments = before ++ .long "max-steps" none :: after) :
    ∃ numeral rest, after = .value numeral :: rest ∧ .limit numeral false ∈ gs := by
  induction gs generalizing before with
  | nil => simp at h
  | cons g gs ih =>
    have hOthers {before : List Argument}
        (h : gs.flatMap Group.arguments = before ++ .long "max-steps" none :: after) :
        ∃ numeral rest, after = .value numeral :: rest ∧ .limit numeral false ∈ g :: gs := by
      obtain ⟨numeral, rest, hAfter, hMem⟩ := ih h
      exact ⟨numeral, rest, hAfter, List.mem_cons_of_mem g hMem⟩
    rw [List.flatMap_cons] at h
    rcases before with _ | ⟨first, before⟩
    · cases g with
      | limit numeral attached =>
        cases attached with
        | true => simp [Group.arguments] at h
        | false =>
          have hAfter := (List.cons_eq_cons.mp h).2.symm
          exact ⟨numeral, _, hAfter, List.mem_cons_self⟩
      | image | trace | step => simp [Group.arguments] at h
    · cases g with
      | limit numeral attached =>
        cases attached with
        | true => exact hOthers (List.cons_eq_cons.mp h).2
        | false =>
          have hRest := (List.cons_eq_cons.mp h).2
          rcases before with _ | ⟨second, before⟩
          · simp at hRest
          · exact hOthers (List.cons_eq_cons.mp hRest).2
      | image | trace | step => exact hOthers (List.cons_eq_cons.mp h).2

theorem exists_limit_of_mem {gs : List Group} {text : String}
    (h : .long "max-steps" (some text) ∈ gs.flatMap Group.arguments) : .limit text true ∈ gs := by
  obtain ⟨g, hg, hMem⟩ := List.mem_flatMap.mp h
  cases g with
  | limit numeral attached =>
    cases attached with
    | true =>
      cases List.mem_singleton.mp hMem
      exact hg
    | false => simp [Group.arguments] at hMem
  | image | trace | step => simp [Group.arguments] at hMem

/-- A text that is read as a value does not look like an option. -/
theorem not_option_of_value {text : String} (h : Argument.ofString text = .value text) :
    ¬(text.toList.head? = some '-' ∧ text ≠ "-") := by
  rintro ⟨hHead, hDash⟩
  obtain ⟨chars, hText⟩ := List.head?_eq_some_iff.mp hHead
  unfold Argument.ofString at h
  split at h
  · cases h
  · dsimp only at h
    split at h <;> cases h
  · cases h
  · next hNone =>
    cases chars with
    | nil => exact hDash (String.toList_injective hText)
    | cons letter chars => exact hNone letter chars hText

/-- The images among the words of groups. -/
theorem length_positionals {gs : List Group} (h : ∀ g ∈ gs, g.Readable) :
    (positionals false (gs.flatMap Group.words)).length = (gs.map Group.slot).count .image := by
  induction gs with
  | nil => rfl
  | cons g gs ih =>
    obtain ⟨hFirst, hOthers⟩ := List.forall_mem_cons.mp h
    rw [List.flatMap_cons, List.map_cons, List.count_cons, ← ih hOthers]
    cases g with
    | image text => simp [Group.words, Group.slot, positionals, not_option_of_value hFirst]
    | trace | step => simp [Group.words, Group.slot, positionals]
    | limit numeral attached =>
      cases attached with
      | true =>
        have hDash : "--max-steps=" ++ numeral ≠ "-" := by
          intro hEq
          simpa using congrArg String.toList hEq
        have hName : "--max-steps=" ++ numeral ≠ "--max-steps" := by
          intro hEq
          simpa using congrArg String.toList hEq
        simp [Group.words, Group.slot, positionals, hDash, hName]
      | false => simp [Group.words, Group.slot, positionals]

namespace Accepted

variable {gs : List Group}

theorem exists_numeral_of_mem (h : Accepted gs) {text : String} {attached : Bool}
    (hMem : .limit text attached ∈ gs) : ∃ n, Numeral text n ∧ n < UInt64.size := by
  have hSound : (number? text).isSome := h.sound _ hMem
  obtain ⟨n, hNumber⟩ := Option.isSome_iff_exists.mp hSound
  exact ⟨n, number?_eq_some_iff.mp hNumber⟩

/-- Nothing is wrong with arguments that make up a request. -/
theorem not_faulty (h : Accepted gs) : ¬Faulty (gs.flatMap Group.words) := by
  intro hFaulty
  cases hFaulty with
  | modes hStep hTrace =>
    have hTraceSlot : Slot.trace ∈ gs.map Group.slot := h.slot_of_name? hTrace (by decide) rfl
    have hStepSlot : Slot.step ∈ gs.map Group.slot := h.slot_of_name? hStep (by decide) rfl
    exact h.modes ⟨hTraceSlot, hStepSlot⟩
  | repeated hRepeated => exact hRepeated h.nodup_names
  | numeral before after hArgs hBad =>
    have hOption : Argument.ofString "--max-steps" = .long "max-steps" none := by decide
    have hArguments := h.map_words
    rw [hArgs, List.map_append, List.map_cons, hOption] at hArguments
    obtain ⟨numeral, rest, hAfter, hMem⟩ := exists_limit_of_append hArguments.symm
    obtain ⟨text, others, rfl, hText, -⟩ := List.map_eq_cons_iff.mp hAfter
    obtain rfl := Argument.eq_of_ofString_value hText
    obtain ⟨n, hNumeral, hBound⟩ := h.exists_numeral_of_mem hMem
    exact absurd (hBad numeral others n rfl hNumeral) (Nat.not_le.mpr hBound)
  | attached text hText hBad =>
    have hArgument := List.mem_map_of_mem (f := Argument.ofString) hText
    rw [h.map_words, Argument.ofString_attached] at hArgument
    obtain ⟨n, hNumeral, hBound⟩ := h.exists_numeral_of_mem (exists_limit_of_mem hArgument)
    exact absurd (hBad n hNumeral) (Nat.not_le.mpr hBound)
  | images hCount =>
    apply hCount
    rw [length_positionals h.readable]
    exact List.count_eq_one_of_mem h.nodup h.image

end Accepted

/-- Faulty arguments are refused, whatever comes first and whatever comes last. -/
theorem exists_error_of_faulty {args : List String}
    (hPlain : ∀ arg ∈ args, ¬(Argument.ofString arg).diverts) (h : Faulty args) :
    ∃ e, Command.ofArguments args = .error e := by
  cases hCommand : Command.ofArguments args with
  | error e => exact ⟨e, rfl⟩
  | ok command =>
    obtain ⟨gs, hAccepted, rfl⟩ := exists_accepted hPlain hCommand
    exact absurd h hAccepted.not_faulty

/-! ## Answers -/

/-- Requests are read as they are meant and answered alike in every way to write them, and faulty
arguments are refused whatever the files are. -/
theorem order_of_arguments_does_not_matter :
    (∀ (request : Request) (args args' : List String), request.image ≠ "" →
      request.image.toList.head? ≠ some '-' → request.Written args → request.Written args' →
        Command.ofArguments args = .ok (.run request) ∧
        Command.ofArguments args' = .ok (.run request) ∧
        ∀ (files : String → Reading) (input : List UInt8) (threshold : Option Level),
          answer args' files input threshold = answer args files input threshold) ∧
    (∀ args : List String, (∀ arg ∈ args, ¬(Argument.ofString arg).diverts) → Faulty args →
      ∃ e, Command.ofArguments args = .error e ∧
        ∀ (files : String → Reading) (input : List UInt8) (threshold : Option Level),
          answer args files input threshold = .refused e ∧
          (answer args files input threshold).exitCode = 1) := by
  constructor
  · intro request args args' hName hPlain hArgs hArgs'
    have hRead := ofArguments_of_written hName hPlain hArgs
    have hRead' := ofArguments_of_written hName hPlain hArgs'
    refine ⟨hRead, hRead', fun files input threshold => ?_⟩
    rw [answer, answer, hRead, hRead']
  · intro args hPlain hFaulty
    obtain ⟨e, hError⟩ := exists_error_of_faulty hPlain hFaulty
    refine ⟨e, hError, fun files input threshold => ?_⟩
    have hAnswer : answer args files input threshold = .refused e := by
      rw [answer, hError]
    rw [hAnswer]
    exact ⟨rfl, rfl⟩

/-- The same limit behind its option and attached to it, and the first one that is too large. -/
theorem order_of_arguments_does_not_matter_plus_sign :
    (Command.ofArguments ["--trace", "--max-steps", "+007", "p.bin"] =
        .ok (.run ⟨"p.bin", .trace, some 7⟩) ∧
      Command.ofArguments ["p.bin", "--max-steps=7", "--trace"] =
        .ok (.run ⟨"p.bin", .trace, some 7⟩)) ∧
    ∃ e, Command.ofArguments ["--max-steps=18446744073709551616", "p.bin"] = .error e := by
  have hPlus : Numeral "+007" 7 :=
    ⟨['0', '0', '7'], .inr rfl, nofun, List.all_eq_true.mp rfl, by decide⟩
  have hPlain : Numeral "7" 7 := ⟨['7'], .inl rfl, nofun, List.all_eq_true.mp rfl, by decide⟩
  have hBehind : Request.Written ⟨"p.bin", .trace, some 7⟩
      ["--trace", "--max-steps", "+007", "p.bin"] :=
    ⟨_, [.trace, .limit "+007" false, .image "p.bin"], .some false hPlus (by decide), by decide,
      rfl⟩
  have hAttached : Request.Written ⟨"p.bin", .trace, some 7⟩
      ["p.bin", "--max-steps=7", "--trace"] :=
    ⟨_, [.image "p.bin", .limit "7" true, .trace], .some true hPlain (by decide), by decide, rfl⟩
  have hFaulty : Faulty ["--max-steps=18446744073709551616", "p.bin"] := by
    refine .attached "18446744073709551616" List.mem_cons_self fun n hNumeral => ?_
    by_contra hNot
    have hNumber := number?_eq_some_iff.mpr ⟨hNumeral, Nat.not_le.mp hNot⟩
    have hNone : number? "18446744073709551616" = none := by decide
    rw [hNone] at hNumber
    cases hNumber
  obtain ⟨hRequests, hRefused⟩ := order_of_arguments_does_not_matter
  obtain ⟨hRead, hRead', -⟩ := hRequests _ _ _ (by decide) (by decide) hBehind hAttached
  obtain ⟨e, hError, -⟩ := hRefused _ (by decide) hFaulty
  exact ⟨⟨hRead, hRead'⟩, e, hError⟩

end RegisterMachine.CommandLine
