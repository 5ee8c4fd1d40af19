import RegisterMachine.Proofs.Requests

/-!
# Groups of arguments

An argument list without a call for help or for the version is read group by group: a group is an
image, a way of watching, or a limit of steps with its numeral, which stands behind the option or is
attached to it. Each group fills one slot of what is given, and no slot is filled twice.

* `read_flatMap_words`, `grouped_of_read`: reading arguments is accepting their groups.
* `foldlM_accept_eq_ok_iff`: which groups are accepted, and what is given then.
-/

namespace RegisterMachine.CommandLine

/-! ## Single arguments -/

namespace Argument

variable {arg name text : String}

theorem eq_of_ofString_value (h : ofString arg = .value text) : text = arg := by
  unfold ofString at h
  split at h
  · cases h
  · dsimp only at h
    split at h <;> cases h
  · cases h
  · cases h
    rfl

theorem eq_of_ofString_long {attached : Option String} (h : ofString arg = .long name attached) :
    arg = "--" ++ (name ++ attached.elim "" ("=" ++ ·)) := by
  unfold ofString at h
  split at h
  · cases h
  · next chars _ hChars =>
    have hWhole := List.takeWhile_append_dropWhile (p := (· ≠ '=')) (l := chars)
    have hHead := List.head?_dropWhile_not (· ≠ '=') chars
    apply String.toList_injective
    dsimp only at h
    split at h
    · next hDrop =>
      cases h
      rw [hDrop, List.append_nil] at hWhole
      simpa [hChars] using hWhole.symm
    · next c attached hDrop =>
      cases h
      rw [hDrop] at hHead
      obtain rfl : c = '=' := by simpa using hHead
      rw [hDrop] at hWhole
      simpa [hChars] using hWhole.symm
  · cases h
  · cases h

theorem ofString_of_head?_ne (h : arg.toList.head? ≠ some '-') : ofString arg = .value arg := by
  unfold ofString
  split
  · next hChars => simp [hChars] at h
  · next hChars => simp [hChars] at h
  · next hChars => simp [hChars] at h
  · rfl

theorem ofString_attached (text : String) :
    ofString ("--max-steps=" ++ text) = .long "max-steps" (some text) := by
  simp [ofString]

end Argument

/-! ## Groups -/

/-- Arguments that belong together. -/
inductive Group where
  | image (text : String)
  | trace
  | step
  /-- A limit of steps; its numeral is attached to the option, or it is an argument of its own. -/
  | limit (numeral : String) (attached : Bool)
deriving DecidableEq

namespace Group

def words : Group → List String
  | image text => [text]
  | trace => ["--trace"]
  | step => ["--step"]
  | limit numeral true => ["--max-steps=" ++ numeral]
  | limit numeral false => ["--max-steps", numeral]

/-- The texts of a group that stand alone do not look like options. -/
def Readable : Group → Prop
  | image text | limit text false => Argument.ofString text = .value text
  | _ => True

end Group

namespace Given

variable {given next : Given}

/-- What is given with one more group. -/
def accept (given : Given) : Group → Except UsageError Given
  | .image text => given.withImage text
  | .trace => given.withTrace
  | .step => given.withStep
  | .limit numeral _ => given.withLimit numeral

/-- The words of a group are read together. -/
theorem read_words {g : Group} (h : g.Readable) (given : Given) (args : List String) :
    given.read (g.words ++ args) = given.accept g >>= (·.read args) := by
  cases g with
  | image text =>
    have hText : Argument.ofString text = .value text := h
    rw [Group.words, List.singleton_append, read.eq_def]
    simp only [hText]
    rfl
  | trace | step =>
    rfl
  | limit numeral attached =>
    cases attached with
    | true =>
      rw [Group.words, List.singleton_append, read.eq_def]
      simp only [Argument.ofString_attached]
      rfl
    | false =>
      have hOption : Argument.ofString "--max-steps" = .long "max-steps" none := by decide
      have hNumeral : Argument.ofString numeral = .value numeral := h
      rw [Group.words, List.cons_append, List.singleton_append, read.eq_def]
      simp only [hOption, hNumeral]
      rfl

/-- Groups are read one after another. -/
theorem read_flatMap_words {gs : List Group} (h : ∀ g ∈ gs, g.Readable) (given : Given) :
    given.read (gs.flatMap Group.words) = gs.foldlM accept given >>= finish := by
  induction gs generalizing given with
  | nil =>
    rw [List.flatMap_nil, read]
    rfl
  | cons g gs ih =>
    obtain ⟨hFirst, hOthers⟩ := List.forall_mem_cons.mp h
    rw [List.flatMap_cons, read_words hFirst, List.foldlM_cons, bind_assoc]
    exact bind_congr fun next => ih hOthers next

end Given

/-- Help, the version and the end of the options: arguments behind them are not read as usual. -/
def Argument.diverts : Argument → Bool
  | .endOfOptions | .short 'h' | .short 'V' | .long "help" none | .long "version" none => true
  | _ => false

/-- Arguments that are made up of groups. -/
def Grouped (args : List String) : Prop :=
  ∃ gs : List Group, args = gs.flatMap Group.words ∧ ∀ g ∈ gs, g.Readable

theorem Grouped.cons {g : Group} {args : List String} (hFirst : g.Readable) (h : Grouped args) :
    Grouped (g.words ++ args) := by
  obtain ⟨gs, rfl, hOthers⟩ := h
  exact ⟨g :: gs, rfl, List.forall_mem_cons.mpr ⟨hFirst, hOthers⟩⟩

/-- All arguments that are read as usual are made up of groups. -/
theorem grouped_of_read {given : Given} {args : List String} {command : Command}
    (hPlain : ∀ arg ∈ args, ¬(Argument.ofString arg).diverts)
    (hRead : given.read args = .ok command) : Grouped args := by
  fun_induction Given.read given args with
  | case1 given => exact ⟨[], rfl, List.forall_mem_nil _⟩
  | case2 given arg args text hText ih =>
    obtain ⟨next, -, hRest⟩ := bind_eq_ok hRead
    obtain rfl := Argument.eq_of_ofString_value hText
    exact (ih next (List.forall_mem_cons.mp hPlain).2 hRest).cons (g := .image text) hText
  | case3 given arg args hArg | case4 given arg args hArg | case5 given arg args hArg
  | case6 given arg args hArg | case7 given arg args hArg =>
    have hFirst := (List.forall_mem_cons.mp hPlain).1
    rw [hArg] at hFirst
    exact absurd rfl hFirst
  | case8 given arg args hArg ih =>
    obtain ⟨next, -, hRest⟩ := bind_eq_ok hRead
    obtain rfl : arg = "--trace" := Argument.eq_of_ofString_long hArg
    exact (ih next (List.forall_mem_cons.mp hPlain).2 hRest).cons (g := .trace) trivial
  | case9 given arg args hArg ih =>
    obtain ⟨next, -, hRest⟩ := bind_eq_ok hRead
    obtain rfl : arg = "--step" := Argument.eq_of_ofString_long hArg
    exact (ih next (List.forall_mem_cons.mp hPlain).2 hRest).cons (g := .step) trivial
  | case10 given arg args text hArg ih =>
    obtain ⟨next, -, hRest⟩ := bind_eq_ok hRead
    obtain rfl : arg = "--max-steps=" ++ text :=
      (Argument.eq_of_ofString_long hArg).trans String.append_assoc.symm
    exact (ih next (List.forall_mem_cons.mp hPlain).2 hRest).cons (g := .limit text true) trivial
  | case12 given arg hArg value args text hText ih =>
    obtain ⟨next, -, hRest⟩ := bind_eq_ok hRead
    obtain rfl : arg = "--max-steps" := Argument.eq_of_ofString_long hArg
    obtain rfl := Argument.eq_of_ofString_value hText
    have hOthers := (List.forall_mem_cons.mp (List.forall_mem_cons.mp hPlain).2).2
    exact (ih next hOthers hRest).cons (g := .limit text false) hText
  | _ => cases hRead

/-! ## Slots -/

/-- The things that can be given, each of them once. -/
inductive Slot where
  | image
  | trace
  | step
  | limit
deriving DecidableEq

namespace Group

def slot : Group → Slot
  | image _ => .image
  | trace => .trace
  | step => .step
  | limit .. => .limit

/-- The image of a group has a name, and its numeral is a limit that can be counted to. -/
def Sound : Group → Prop
  | image text => text ≠ ""
  | limit numeral _ => (number? numeral).isSome
  | _ => True

end Group

namespace Given

variable {given next : Given}

/-- Is it given? -/
def has (given : Given) : Slot → Bool
  | .image => given.image.isSome
  | .trace => given.trace
  | .step => given.step
  | .limit => given.limit.isSome

/-- What is given when a group fills its slot. -/
def put (given : Given) : Group → Given
  | .image text => { given with image := some text }
  | .trace => { given with trace := true }
  | .step => { given with step := true }
  | .limit numeral _ => { given with limit := number? numeral }

/-- A group fills its slot and leaves all others as they are. -/
theorem has_put_eq_false_iff {g : Group} (hSound : g.Sound) {slot : Slot} :
    (given.put g).has slot = false ↔ g.slot ≠ slot ∧ given.has slot = false := by
  cases g with
  | limit numeral attached =>
    obtain ⟨n, hNumber⟩ := Option.isSome_iff_exists.mp hSound
    cases slot <;> simp [put, has, Group.slot, hNumber]
  | image text | trace | step => cases slot <;> simp [put, has, Group.slot]

/-- Groups for different slots do not touch each other. -/
theorem put_put_of_ne {g g' : Group} (h : g.slot ≠ g'.slot) (given : Given) :
    (given.put g).put g' = (given.put g').put g := by
  cases g <;> cases g' <;> simp [put, Group.slot] at h ⊢

/-- A group is accepted if its slot is free. -/
theorem accept_eq_ok_iff {g : Group} :
    given.accept g = .ok next ↔ g.Sound ∧ given.has g.slot = false ∧ given.put g = next := by
  cases g with
  | image text =>
    simp only [accept, withImage, Group.Sound, has, put, Group.slot]
    by_cases hFilled : given.image.isSome
    · simp [hFilled]
    · by_cases hName : text = "" <;> simp [hFilled, hName]
  | trace =>
    simp only [accept, withTrace, Group.Sound, has, put, Group.slot]
    by_cases hFilled : given.trace <;> simp [hFilled]
  | step =>
    simp only [accept, withStep, Group.Sound, has, put, Group.slot]
    by_cases hFilled : given.step <;> simp [hFilled]
  | limit numeral attached =>
    simp only [accept, withLimit, Group.Sound, has, put, Group.slot]
    by_cases hFilled : given.limit.isSome
    · simp [hFilled]
    · cases hNumber : number? numeral <;> simp [hFilled]

/-- Groups are accepted one after another if they are for different slots that all are free. -/
theorem foldlM_accept_eq_ok_iff {gs : List Group} :
    gs.foldlM accept given = .ok next ↔
      (∀ g ∈ gs, g.Sound ∧ given.has g.slot = false) ∧ (gs.map Group.slot).Nodup ∧
        gs.foldl put given = next := by
  induction gs generalizing given with
  | nil =>
    rw [List.foldlM_nil]
    constructor
    · rintro ⟨⟩
      exact ⟨nofun, List.nodup_nil, rfl⟩
    · rintro ⟨-, -, rfl⟩
      rfl
  | cons g gs ih =>
    rw [List.foldlM_cons, List.forall_mem_cons, List.map_cons, List.nodup_cons, List.foldl_cons]
    constructor
    · intro h
      obtain ⟨mid, hFirst, hRest⟩ := bind_eq_ok h
      obtain ⟨hSound, hFree, rfl⟩ := accept_eq_ok_iff.mp hFirst
      obtain ⟨hOthers, hNodup, hNext⟩ := ih.mp hRest
      refine ⟨⟨⟨hSound, hFree⟩, fun g' hg' => ?_⟩, ⟨fun hMem => ?_, hNodup⟩, hNext⟩
      · obtain ⟨hSound', hFree'⟩ := hOthers g' hg'
        exact ⟨hSound', ((has_put_eq_false_iff hSound).mp hFree').2⟩
      · obtain ⟨g', hg', hSlot⟩ := List.mem_map.mp hMem
        exact ((has_put_eq_false_iff hSound).mp (hOthers g' hg').2).1 hSlot.symm
    · rintro ⟨⟨⟨hSound, hFree⟩, hOthers⟩, ⟨hNotMem, hNodup⟩, hNext⟩
      have hFirst : given.accept g = .ok (given.put g) :=
        accept_eq_ok_iff.mpr ⟨hSound, hFree, rfl⟩
      rw [hFirst]
      refine ih.mpr ⟨fun g' hg' => ?_, hNodup, hNext⟩
      obtain ⟨hSound', hFree'⟩ := hOthers g' hg'
      refine ⟨hSound', (has_put_eq_false_iff hSound).mpr ⟨fun hSlot => hNotMem ?_, hFree'⟩⟩
      exact List.mem_map.mpr ⟨g', hg', hSlot.symm⟩

/-- Groups for different slots can come in any order. -/
theorem foldl_put_of_perm {gs gs' : List Group} (h : gs.Perm gs')
    (hNodup : (gs.map Group.slot).Nodup) (given : Given) :
    gs.foldl put given = gs'.foldl put given := by
  refine h.foldl_eq' (fun g hg g' hg' given => ?_) given
  by_cases hSlot : g.slot = g'.slot
  · rw [List.inj_on_of_nodup_map hNodup hg hg' hSlot]
  · exact put_put_of_ne hSlot given

/-- Nothing is given at first. -/
theorem has_nothing (slot : Slot) : has {} slot = false := by
  cases slot <;> rfl

/-- What is given in the end has been given before or by one of the groups. -/
theorem has_foldl_put_eq_false_iff {gs : List Group} (hSound : ∀ g ∈ gs, g.Sound)
    {given : Given} {slot : Slot} : (gs.foldl put given).has slot = false ↔
      slot ∉ gs.map Group.slot ∧ given.has slot = false := by
  induction gs generalizing given with
  | nil => simp
  | cons g gs ih =>
    obtain ⟨hFirst, hOthers⟩ := List.forall_mem_cons.mp hSound
    rw [List.foldl_cons, ih hOthers, has_put_eq_false_iff hFirst, List.map_cons, List.mem_cons,
      not_or, eq_comm (a := slot)]
    exact and_left_comm.trans and_assoc.symm

/-- A command is only made of an image and at most one way of watching. -/
theorem has_of_finish {given : Given} {command : Command} (h : given.finish = .ok command) :
    given.has .image = true ∧ ¬(given.has .trace = true ∧ given.has .step = true) := by
  obtain ⟨mode, hMode, hRest⟩ := bind_eq_ok h
  constructor
  · change given.image.isSome = true
    cases hImage : given.image with
    | none =>
      rw [hImage] at hRest
      cases hRest
    | some image => rfl
  · rintro ⟨hTrace, hStep⟩
    have hBoth : given.trace = true ∧ given.step = true := ⟨hTrace, hStep⟩
    rw [Given.mode, hBoth.1, hBoth.2] at hMode
    cases hMode

end Given

end RegisterMachine.CommandLine
