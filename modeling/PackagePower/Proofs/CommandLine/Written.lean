import PackagePower.CommandLine.Options
import PackagePower.Proofs.Text.Span

/-!
# How options are written

A command line is a row of pieces, and at most an end mark behind them. A piece is a long name, one
with its value attached, one with its values as arguments behind it, or letters run together.
Reading finds the options that the pieces give and refuses whatever is no row of pieces, so each
time it is given an option has as many values as it takes.
-/

namespace PackagePower.CommandLine

/-! ## Arguments -/

/-- What is typed for a form. -/
inductive Form.Shows : Form → String → Prop where
  | endMark : Shows .endMark "--"
  | long {name : String} (named : name ≠ "") (unmarked : '=' ∉ name.toList) :
      Shows (.long name none) ("--" ++ name)
  | attached {name : String} (unmarked : '=' ∉ name.toList) (value : String) :
      Shows (.long name (some value)) ("--" ++ name ++ "=" ++ value)
  | short {letter : Char} (other : letter ≠ '-') (letters : List Char) :
      Shows (.short (letter :: letters)) ("-" ++ String.ofList (letter :: letters))
  | plain {argument : String} (undashed : ∀ c rest, argument.toList ≠ '-' :: c :: rest) :
      Shows .plain argument

theorem Form.shows_ofArgument (argument : String) : (Form.ofArgument argument).Shows argument := by
  unfold Form.ofArgument
  split
  · rename_i typed
    obtain rfl : argument = "--" := String.toList_injective typed
    exact .endMark
  · rename_i rest more typed
    by_cases mark : '=' ∈ rest
    · obtain ⟨name, value, rfl, unmarked⟩ := List.eq_append_cons_of_mem mark
      rw [Text.span_marked unmarked]
      have whole : argument = "--" ++ String.ofList name ++ "=" ++ String.ofList value :=
        String.toList_injective (by simp [typed])
      rw [whole]
      exact .attached (by simpa using unmarked) _
    · rw [Text.span_unmarked mark]
      have whole : argument = "--" ++ String.ofList rest :=
        String.toList_injective (by simp [typed])
      rw [whole]
      refine .long ?_ (by simpa using mark)
      intro empty
      have nothing : rest = [] := by simpa using congrArg String.toList empty
      subst nothing
      exact more rfl
  · rename_i c rest _ dashed typed
    have whole : argument = "-" ++ String.ofList (c :: rest) :=
      String.toList_injective (by simp [typed])
    rw [whole]
    refine .short ?_ _
    rintro rfl
    exact dashed rfl
  · rename_i undashed
    exact .plain fun c rest typed => undashed c rest typed

theorem Form.ofArgument_named {argument : String} {c : Char} {rest : List Char}
    (typed : argument.toList = '-' :: '-' :: c :: rest) :
    Form.ofArgument argument = match (c :: rest).span (fun c => decide (c ≠ '=')) with
      | (name, []) => .long (String.ofList name) none
      | (name, _ :: value) => .long (String.ofList name) (some (String.ofList value)) := by
  unfold Form.ofArgument
  rw [typed]
  rfl

theorem Form.Shows.ofArgument_eq {form : Form} {argument : String} (shown : form.Shows argument) :
    Form.ofArgument argument = form := by
  cases shown with
  | endMark => rfl
  | @long name named unmarked =>
    cases chars : name.toList with
    | nil => exact (named (String.toList_injective chars)).elim
    | cons c rest =>
      have typed : ("--" ++ name).toList = '-' :: '-' :: c :: rest := by simp [chars]
      rw [Form.ofArgument_named typed, ← chars, Text.span_unmarked unmarked]
      simp
  | @attached name unmarked value =>
    have filled : name.toList ++ '=' :: value.toList ≠ [] := by simp
    obtain ⟨c, rest, chars⟩ := List.exists_cons_of_ne_nil filled
    have typed : ("--" ++ name ++ "=" ++ value).toList = '-' :: '-' :: c :: rest := by
      simp [← chars]
    rw [Form.ofArgument_named typed, ← chars, Text.span_marked unmarked]
    simp
  | @short letter other letters =>
    have typed : ("-" ++ String.ofList (letter :: letters)).toList = '-' :: letter :: letters := by
      simp
    unfold Form.ofArgument
    rw [typed]
    split <;> simp_all
  | plain undashed =>
    unfold Form.ofArgument
    split <;> simp_all

/-! ## Values -/

/-- `value` can stand behind an option: a dash in front of more is the sign of a negative number,
where the option takes these. -/
def Follows (negatives : Bool) (value : String) : Prop :=
  ∀ c rest, value.toList = '-' :: c :: rest → negatives = true ∧ looksNumeric (c :: rest) = true

theorem looksNumeric_dash (rest : List Char) : looksNumeric ('-' :: rest) = false := by
  unfold looksNumeric
  rw [List.span_eq_takeWhile_dropWhile, List.takeWhile_cons_of_pos (by decide)]
  dsimp only
  split
  · rename_i same
    obtain ⟨rfl, _⟩ := Prod.mk.inj same
    rfl
  · rename_i same
    obtain ⟨rfl, _⟩ := Prod.mk.inj same
    rfl

theorem not_follows_of_dashes {negatives : Bool} {value : String} {rest : List Char}
    (dashes : value.toList = '-' :: '-' :: rest) : ¬ Follows negatives value := by
  intro follows
  have numeric := (follows '-' rest dashes).2
  rw [looksNumeric_dash] at numeric
  cases numeric

variable {ι : Type}

theorem Pending.accepts_iff {pending : Pending ι} {value : String} :
    pending.accepts value = true ↔ Follows pending.negatives value := by
  have shown := Form.shows_ofArgument value
  unfold Pending.accepts
  generalize Form.ofArgument value = form at shown ⊢
  cases shown with
  | endMark => exact iff_of_false nofun (not_follows_of_dashes rfl)
  | long => exact iff_of_false nofun (not_follows_of_dashes (by simp; rfl))
  | attached => exact iff_of_false nofun (not_follows_of_dashes (by simp; rfl))
  | @short letter other letters =>
    have typed : ("-" ++ String.ofList (letter :: letters)).toList = '-' :: letter :: letters := by
      simp
    unfold Follows
    rw [typed, Bool.and_eq_true]
    constructor
    · rintro numeric c rest ⟨⟩
      exact numeric
    · intro follows
      exact follows letter letters rfl
  | plain undashed => exact iff_of_true rfl fun c rest typed => (undashed c rest typed).elim

/-- How many values an option takes each time. -/
def Arity.count : Arity → Nat
  | .flag => 0
  | .values count _ => count

/-- Names tell the options apart and can be typed, and no option waits for nothing. -/
structure Unambiguous (specs : List (OptionSpec ι)) : Prop where
  ids : ∀ spec ∈ specs, ∀ other ∈ specs, other.id = spec.id → other = spec
  longs : ∀ spec ∈ specs, ∀ other ∈ specs, other.long = spec.long → other = spec
  shorts : ∀ spec ∈ specs, ∀ other ∈ specs, ∀ letter,
    other.short = some letter → spec.short = some letter → other = spec
  named : ∀ spec ∈ specs, spec.long ≠ "" ∧ '=' ∉ spec.long.toList
  lettered : ∀ spec ∈ specs, spec.short ≠ some '-'
  valued : ∀ spec ∈ specs, ∀ negatives, spec.arity ≠ .values 0 negatives

theorem Unambiguous.count_pos {specs : List (OptionSpec ι)} (unambiguous : Unambiguous specs)
    {spec : OptionSpec ι} (member : spec ∈ specs) {count : Nat} {negatives : Bool}
    (arity : spec.arity = .values count negatives) : 0 < count := by
  apply Nat.pos_of_ne_zero
  rintro rfl
  exact unambiguous.valued spec member negatives arity

/-- Arguments that give options, and these options. -/
inductive Piece (specs : List (OptionSpec ι)) : List String → List (Given ι) → Prop where
  | flag {spec : OptionSpec ι} (member : spec ∈ specs) (flag : spec.arity = .flag) :
      Piece specs ["--" ++ spec.long] [{ id := spec.id, values := [] }]
  | letters {flags : List (OptionSpec ι)} {letters : List Char} (filled : letters ≠ [])
      (named : flags.map OptionSpec.short = letters.map some)
      (each : ∀ spec ∈ flags, spec ∈ specs ∧ spec.arity = .flag) :
      Piece specs ["-" ++ String.ofList letters] (flags.map fun spec => { id := spec.id, values := [] })
  | attached {spec : OptionSpec ι} {negatives : Bool} (member : spec ∈ specs)
      (one : spec.arity = .values 1 negatives) (value : String) :
      Piece specs ["--" ++ spec.long ++ "=" ++ value] [{ id := spec.id, values := [value] }]
  | apart {spec : OptionSpec ι} {negatives : Bool} {values : List String} (member : spec ∈ specs)
      (all : spec.arity = .values values.length negatives)
      (follow : ∀ value ∈ values, Follows negatives value) :
      Piece specs (("--" ++ spec.long) :: values) [{ id := spec.id, values }]

theorem Piece.length_pos {specs : List (OptionSpec ι)} {arguments : List String}
    {given : List (Given ι)} (piece : Piece specs arguments given) : 0 < arguments.length := by
  cases piece <;> simp

/-- A command line and the options that it gives. -/
inductive Written (specs : List (OptionSpec ι)) : List String → List (Given ι) → Prop where
  | nil : Written specs [] []
  | endMark : Written specs ["--"] []
  | piece {arguments rest : List String} {given more : List (Given ι)}
      (first : Piece specs arguments given) (later : Written specs rest more) :
      Written specs (arguments ++ rest) (given ++ more)

variable {specs : List (OptionSpec ι)} {spec : OptionSpec ι} {arguments rest : List String}
  {given more : List (Given ι)}

/-! ## Reading -/

/-- The values that an option waits for are read one by one. -/
theorem read_values {pending : Pending ι} {values : List String} (filled : values ≠ [])
    (all : values.length = pending.missing)
    (follow : ∀ value ∈ values, Follows pending.negatives value)
    (later : read specs none rest = some more) :
    read specs (some pending) (values ++ rest) =
      some ({ id := pending.id, values := pending.values ++ values } :: more) := by
  induction values generalizing pending with
  | nil => exact (filled rfl).elim
  | cons value values ih =>
    obtain ⟨first, others⟩ := List.forall_mem_cons.1 follow
    rw [List.cons_append, read, if_pos (Pending.accepts_iff.2 first), ← all]
    cases values with
    | nil => simp [later]
    | cons next values =>
      have goes_on : ¬ (value :: next :: values).length ≤ 1 := by simp
      rw [if_neg goes_on]
      refine (ih (List.cons_ne_nil next values) ?_ ?_).trans (by simp)
      · rfl
      · exact others

theorem of_read_pending {pending : Pending ι} (short : 0 < pending.missing)
    (found : read specs (some pending) arguments = some given) :
    ∃ values rest more, arguments = values ++ rest ∧ values.length = pending.missing ∧
      (∀ value ∈ values, Follows pending.negatives value) ∧ read specs none rest = some more ∧
      given = { id := pending.id, values := pending.values ++ values } :: more := by
  induction arguments generalizing pending with
  | nil => cases found
  | cons argument arguments ih =>
    rw [read] at found
    split at found
    · rename_i accepted
      have follows := Pending.accepts_iff.1 accepted
      dsimp only at found
      split at found
      · rename_i last
        obtain ⟨more, later, rfl⟩ := Option.map_eq_some_iff.1 found
        have one : pending.missing = 1 := Nat.le_antisymm last short
        exact ⟨[argument], arguments, more, rfl, one.symm, by simpa using follows, later, rfl⟩
      · rename_i more
        obtain ⟨values, rest, more, rfl, all, follow, later, rfl⟩ :=
          ih (by dsimp only; omega) found
        refine ⟨argument :: values, rest, more, rfl, ?_, ?_, later, by simp⟩
        · rw [List.length_cons, all]
          exact Nat.sub_add_cancel short
        · exact List.forall_mem_cons.2 ⟨follows, follow⟩
    · cases found

theorem find?_of_unique {α : Type} {p : α → Bool} {items : List α} {item : α} (member : item ∈ items)
    (holds : p item = true) (unique : ∀ other ∈ items, p other = true → other = item) :
    items.find? p = some item := by
  cases found : items.find? p with
  | none => exact (List.find?_eq_none.1 found item member holds).elim
  | some other =>
    rw [unique other (List.mem_of_find?_eq_some found) (List.find?_some found)]

theorem of_find?_long {name : String}
    (found : specs.find? (fun spec => decide (spec.long = name)) = some spec) :
    spec ∈ specs ∧ spec.long = name :=
  ⟨List.mem_of_find?_eq_some found, by simpa using List.find?_some found⟩

section
variable (unambiguous : Unambiguous specs) (member : spec ∈ specs)
include unambiguous member

theorem Unambiguous.find?_long :
    specs.find? (fun other => decide (other.long = spec.long)) = some spec :=
  find?_of_unique member (decide_eq_true rfl) fun other listed same =>
    unambiguous.longs spec member other listed (of_decide_eq_true same)

theorem Unambiguous.find?_short {letter : Char} (lettered : spec.short = some letter) :
    specs.find? (fun other => decide (other.short = some letter)) = some spec :=
  find?_of_unique member (decide_eq_true lettered) fun other listed same =>
    unambiguous.shorts spec member other listed letter (of_decide_eq_true same) lettered

theorem Unambiguous.ofArgument_long :
    Form.ofArgument ("--" ++ spec.long) = .long spec.long none :=
  have ⟨named, unmarked⟩ := unambiguous.named spec member
  (Form.Shows.long named unmarked).ofArgument_eq

theorem Unambiguous.ofArgument_attached (value : String) :
    Form.ofArgument ("--" ++ spec.long ++ "=" ++ value) = .long spec.long (some value) :=
  (Form.Shows.attached (unambiguous.named spec member).2 value).ofArgument_eq

end

theorem flagsOf_of_flags (unambiguous : Unambiguous specs) {flags : List (OptionSpec ι)}
    {letters : List Char} (named : flags.map OptionSpec.short = letters.map some)
    (each : ∀ spec ∈ flags, spec ∈ specs ∧ spec.arity = .flag) :
    flagsOf specs letters = some (flags.map fun spec => { id := spec.id, values := [] }) := by
  induction letters generalizing flags with
  | nil =>
    rw [List.map_eq_nil_iff.1 named]
    rfl
  | cons letter letters ih =>
    cases flags with
    | nil => cases named
    | cons spec flags =>
      obtain ⟨first, others⟩ := List.cons.inj named
      obtain ⟨⟨member, flag⟩, each⟩ := List.forall_mem_cons.1 each
      have later := ih others each
      unfold flagsOf at later ⊢
      rw [List.mapM_cons, later, unambiguous.find?_short member first]
      simp [flag]

theorem of_flagsOf {letters : List Char} (read : flagsOf specs letters = some given) :
    ∃ flags : List (OptionSpec ι), flags.map OptionSpec.short = letters.map some ∧
      (∀ spec ∈ flags, spec ∈ specs ∧ spec.arity = .flag) ∧
      given = flags.map fun spec => { id := spec.id, values := [] } := by
  induction letters generalizing given with
  | nil =>
    cases read
    exact ⟨[], rfl, nofun, rfl⟩
  | cons letter letters ih =>
    unfold flagsOf at read ih
    rw [List.mapM_cons] at read
    obtain ⟨flag, first, read₁⟩ := Option.bind_eq_some_iff.1 read
    obtain ⟨others, later, same⟩ := Option.bind_eq_some_iff.1 read₁
    cases same
    obtain ⟨spec, found, made⟩ := Option.bind_eq_some_iff.1 first
    obtain ⟨flags, named, each, rfl⟩ := ih later
    have lettered : spec.short = some letter := by simpa using List.find?_some found
    split at made
    · rename_i flag
      cases made
      refine ⟨spec :: flags, congrArg₂ List.cons lettered named, ?_, rfl⟩
      exact List.forall_mem_cons.2 ⟨⟨List.mem_of_find?_eq_some found, flag⟩, each⟩
    · cases made

theorem start_flag (flag : spec.arity = .flag) :
    start spec none = some (.inl { id := spec.id, values := [] }) := by
  unfold start
  rw [flag]

theorem start_values {count : Nat} {negatives : Bool} (valued : spec.arity = .values count negatives) :
    start spec none = some (.inr { id := spec.id, values := [], missing := count, negatives }) := by
  unfold start
  rw [valued]
  split <;> simp_all

theorem start_attached_eq_some_iff {value : String} {started : Given ι ⊕ Pending ι} :
    start spec (some value) = some started ↔
      ∃ negatives, spec.arity = .values 1 negatives ∧
        started = .inl { id := spec.id, values := [value] } := by
  unfold start
  cases spec.arity with
  | flag => simp
  | values count negatives => split <;> simp_all [eq_comm]

/-- A piece is read as what it gives, and reading goes on behind it. -/
theorem read_piece (unambiguous : Unambiguous specs) (piece : Piece specs arguments given)
    (later : read specs none rest = some more) :
    read specs none (arguments ++ rest) = some (given ++ more) := by
  cases piece with
  | flag member flag =>
    rw [List.singleton_append, read, unambiguous.ofArgument_long member]
    dsimp only
    rw [unambiguous.find?_long member]
    simp [start_flag flag, later]
  | @letters flags letters filled named each =>
    obtain ⟨letter, letters, rfl⟩ := List.exists_cons_of_ne_nil filled
    have other : letter ≠ '-' := by
      rintro rfl
      cases flags with
      | nil => cases named
      | cons spec flags =>
        have member := (each spec List.mem_cons_self).1
        exact unambiguous.lettered spec member (List.cons.inj named).1
    rw [List.singleton_append, read, (Form.Shows.short other letters).ofArgument_eq]
    dsimp only
    rw [flagsOf_of_flags unambiguous named each]
    simp [later]
  | attached member one value =>
    rw [List.singleton_append, read, unambiguous.ofArgument_attached member]
    dsimp only
    rw [unambiguous.find?_long member]
    simp [start_attached_eq_some_iff.2 ⟨_, one, rfl⟩, later]
  | @apart spec negatives values member all follow =>
    rw [List.cons_append, read, unambiguous.ofArgument_long member]
    dsimp only
    rw [unambiguous.find?_long member]
    change (start spec none >>= _) = _
    rw [start_values all]
    have filled := List.length_pos_iff.1 (unambiguous.count_pos member all)
    exact read_values filled rfl follow later

/-- What is read begins with a piece, or is the end mark alone. -/
theorem piece_of_read (unambiguous : Unambiguous specs) {argument : String}
    (found : read specs none (argument :: arguments) = some given) :
    (argument = "--" ∧ arguments = [] ∧ given = []) ∨
      ∃ typed own rest more, argument :: arguments = typed ++ rest ∧ given = own ++ more ∧
        Piece specs typed own ∧ read specs none rest = some more := by
  have shown := Form.shows_ofArgument argument
  rw [read] at found
  generalize Form.ofArgument argument = form at shown found
  cases shown with
  | endMark =>
    dsimp only at found
    split at found
    · rename_i last
      cases found
      exact .inl ⟨rfl, List.isEmpty_iff.1 last, rfl⟩
    · cases found
  | plain => cases found
  | short other letters =>
    obtain ⟨flags, known, found⟩ := Option.bind_eq_some_iff.1 found
    obtain ⟨more, later, rfl⟩ := Option.map_eq_some_iff.1 found
    obtain ⟨named, lettered, each, rfl⟩ := of_flagsOf known
    exact .inr ⟨_, _, arguments, more, rfl, rfl, .letters nofun lettered each, later⟩
  | @long name named unmarked =>
    obtain ⟨spec, known, found⟩ := Option.bind_eq_some_iff.1 found
    obtain ⟨started, begun, found⟩ := Option.bind_eq_some_iff.1 found
    obtain ⟨member, rfl⟩ := of_find?_long known
    cases arity : spec.arity with
    | flag =>
      rw [start_flag arity] at begun
      cases begun
      obtain ⟨more, later, rfl⟩ := Option.map_eq_some_iff.1 found
      exact .inr ⟨_, _, arguments, more, rfl, rfl, .flag member arity, later⟩
    | values count negatives =>
      rw [start_values arity] at begun
      cases begun
      obtain ⟨values, rest, more, rfl, rfl, follow, later, rfl⟩ :=
        of_read_pending (unambiguous.count_pos member arity) found
      exact .inr ⟨_, _, rest, more, rfl, rfl, .apart member arity follow, later⟩
  | @attached name unmarked value =>
    obtain ⟨spec, known, found⟩ := Option.bind_eq_some_iff.1 found
    obtain ⟨started, begun, found⟩ := Option.bind_eq_some_iff.1 found
    obtain ⟨member, rfl⟩ := of_find?_long known
    obtain ⟨negatives, one, rfl⟩ := start_attached_eq_some_iff.1 begun
    obtain ⟨more, later, rfl⟩ := Option.map_eq_some_iff.1 found
    exact .inr ⟨_, _, arguments, more, rfl, rfl, .attached member one value, later⟩

theorem written_of_read (unambiguous : Unambiguous specs)
    (found : read specs none arguments = some given) : Written specs arguments given := by
  -- What is left behind a piece is shorter, and need not be what one argument leaves.
  induction size : arguments.length using Nat.strongRecOn generalizing arguments given with
  | ind n ih =>
    cases arguments with
    | nil =>
      cases found
      exact .nil
    | cons argument arguments =>
      rcases piece_of_read unambiguous found with
        ⟨rfl, rfl, rfl⟩ | ⟨typed, own, rest, more, split, rfl, first, later⟩
      · exact .endMark
      · rw [split]
        refine .piece first (ih rest.length ?_ later rfl)
        have shorter := first.length_pos
        have total := congrArg List.length split
        rw [List.length_append] at total
        omega

/-- Reading finds what is written, and nothing else is read. -/
theorem read_eq_some_iff (unambiguous : Unambiguous specs) :
    read specs none arguments = some given ↔ Written specs arguments given := by
  constructor
  · exact written_of_read unambiguous
  · intro written
    induction written with
    | nil => rfl
    | endMark => rfl
    | piece first later ih => exact read_piece unambiguous first ih

/-! ## What is written -/

theorem Piece.fits (piece : Piece specs arguments given) : ∀ option ∈ given,
    ∃ spec ∈ specs, spec.id = option.id ∧ option.values.length = spec.arity.count := by
  intro option member
  cases piece with
  | flag listed flag =>
    rw [List.mem_singleton.1 member]
    exact ⟨_, listed, rfl, by rw [flag]; rfl⟩
  | letters _ _ each =>
    obtain ⟨spec, lettered, rfl⟩ := List.mem_map.1 member
    obtain ⟨listed, flag⟩ := each spec lettered
    exact ⟨spec, listed, rfl, by rw [flag]; rfl⟩
  | attached listed one value =>
    rw [List.mem_singleton.1 member]
    exact ⟨_, listed, rfl, by rw [one]; rfl⟩
  | apart listed all follow =>
    rw [List.mem_singleton.1 member]
    exact ⟨_, listed, rfl, by rw [all]; rfl⟩

namespace Written

theorem fits (written : Written specs arguments given) : ∀ option ∈ given,
    ∃ spec ∈ specs, spec.id = option.id ∧ option.values.length = spec.arity.count := by
  induction written with
  | nil | endMark => nofun
  | piece first later ih => exact List.forall_mem_append.2 ⟨first.fits, ih⟩

/-- More can be written behind a command line that has no end mark. -/
theorem append (written : Written specs arguments given) (later : Written specs rest more)
    (unended : "--" ∉ arguments) : Written specs (arguments ++ rest) (given ++ more) := by
  induction written with
  | nil => exact later
  | endMark => exact (unended (List.mem_singleton.2 rfl)).elim
  | piece first _ ih =>
    rw [List.append_assoc, List.append_assoc]
    exact .piece first (ih fun mark => unended (List.mem_append_right _ mark))

theorem unique {other : List (Given ι)} (written : Written specs arguments given)
    (unambiguous : Unambiguous specs) (beside : Written specs arguments other) : other = given :=
  Option.some.inj
    (((read_eq_some_iff unambiguous).2 beside).symm.trans ((read_eq_some_iff unambiguous).2 written))

variable [DecidableEq ι]

/-- Each time it is given, an option has as many values as it takes. -/
theorem length_valuesOf (written : Written specs arguments given)
    (unambiguous : Unambiguous specs) (member : spec ∈ specs) :
    (valuesOf given spec.id).length = spec.arity.count * occurrences given spec.id := by
  have each : ∀ option ∈ given, option.id = spec.id → option.values.length = spec.arity.count := by
    intro option listed same
    obtain ⟨other, known, named, long⟩ := written.fits option listed
    rw [long, unambiguous.ids spec member other known (named.trans same)]
  clear written
  induction given with
  | nil => rfl
  | cons option given ih =>
    obtain ⟨first, others⟩ := List.forall_mem_cons.1 each
    have later := ih others
    unfold valuesOf occurrences at later ⊢
    by_cases same : option.id = spec.id
    · simp [same, first same, later, Nat.mul_add, Nat.add_comm]
    · simp [same, later]

/-- An option with values is given where it has some. -/
theorem isGiven_eq_false_iff {id : ι} (written : Written specs arguments given)
    (unambiguous : Unambiguous specs) (valued : ∃ spec ∈ specs, spec.id = id ∧ spec.arity ≠ .flag) :
    isGiven given id = false ↔ valuesOf given id = [] := by
  obtain ⟨spec, member, rfl, valued⟩ := valued
  have long := written.length_valuesOf unambiguous member
  have takes : spec.arity.count ≠ 0 := by
    cases arity : spec.arity with
    | flag => exact (valued arity).elim
    | values count negatives => exact Nat.ne_of_gt (unambiguous.count_pos member arity)
  rw [← List.length_eq_zero_iff, long, Nat.mul_eq_zero, or_iff_right takes]
  simp [isGiven]

end Written

/-- No option is given again that may not be. -/
def Once [DecidableEq ι] (specs : List (OptionSpec ι)) (given : List (Given ι)) : Prop :=
  ∀ spec ∈ specs, spec.repeatable = true ∨ occurrences given spec.id ≤ 1

theorem parse_eq_some_iff [DecidableEq ι] (unambiguous : Unambiguous specs) :
    parse specs arguments = some given ↔ Written specs arguments given ∧ Once specs given := by
  unfold parse Once
  rw [Option.bind_eq_bind, Option.bind_eq_some_iff]
  simp only [read_eq_some_iff unambiguous]
  constructor
  · rintro ⟨found, written, same⟩
    split at same
    · rename_i once
      cases same
      exact ⟨written, by simpa using once⟩
    · cases same
  · rintro ⟨written, once⟩
    exact ⟨given, written, if_pos (by simpa using once)⟩

end PackagePower.CommandLine
