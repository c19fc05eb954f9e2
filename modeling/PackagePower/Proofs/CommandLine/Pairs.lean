import PackagePower.Proofs.CommandLine.Understood

/-!
# Pairs of limits as they are typed

An option for a pair takes two values each time it is typed, and it may be typed again. Its first
two values are there and are used. They are all that was typed for it exactly where it was typed
once: a pair that is typed later only has to be understood. Watts to set and a value to restore are
never both there, and neither are counts and watts to look for.
-/

namespace PackagePower.CommandLine

section
variable {ι : Type} {specs : List (OptionSpec ι)} {spec : OptionSpec ι} {arguments : List String}
  {given : List (Given ι)} {negatives : Bool}

/-! ## An option typed again -/

theorem Written.repeated (written : Written specs arguments given) (member : spec ∈ specs)
    (two : spec.arity = .values 2 negatives) (unended : "--" ∉ arguments) {text text' : String}
    (follows : Follows negatives text) (follows' : Follows negatives text') :
    Written specs (arguments ++ ["--" ++ spec.long, text, text'])
      (given ++ [{ id := spec.id, values := [text, text'] }]) := by
  have follow : ∀ value ∈ [text, text'], Follows negatives value := by
    simp [follows, follows']
  have piece : Piece specs ["--" ++ spec.long, text, text']
      [{ id := spec.id, values := [text, text'] }] := .apart member two follow
  exact written.append (.piece piece .nil) unended

variable [DecidableEq ι] {id own : ι} {values : List String}

theorem valuesOf_repeated :
    valuesOf (given ++ [{ id := own, values }]) own = valuesOf given own ++ values := by
  simp [valuesOf]

theorem isGiven_repeated : isGiven (given ++ [{ id := own, values }]) own = true := by
  simp [isGiven, occurrences]

section
variable (other : own ≠ id)
include other

theorem valuesOf_other : valuesOf (given ++ [{ id := own, values }]) id = valuesOf given id := by
  simp [valuesOf, other]

theorem occurrences_other :
    occurrences (given ++ [{ id := own, values }]) id = occurrences given id := by
  simp [occurrences, other]

theorem isGiven_other : isGiven (given ++ [{ id := own, values }]) id = isGiven given id := by
  unfold isGiven
  rw [occurrences_other other]

theorem valueOf_other {α ε : Type} {read : String → Except ε α} :
    valueOf (given ++ [{ id := own, values }]) id read = valueOf given id read := by
  unfold valueOf
  rw [valuesOf_other other]

end

theorem Once.repeated (once : Once specs given) (unambiguous : Unambiguous specs)
    (member : spec ∈ specs) (repeatable : spec.repeatable = true) :
    Once specs (given ++ [{ id := spec.id, values }]) := by
  intro other listed
  by_cases same : spec.id = other.id
  · rw [unambiguous.ids spec member other listed same.symm]
    exact .inl repeatable
  · rw [occurrences_other same]
    exact once other listed

/-- What is collected for an option that takes two values is a pair, and a pair more for each time
that it was typed again. -/
theorem Written.pairs {α β : Type} (written : Written specs arguments given)
    (unambiguous : Unambiguous specs) (member : spec ∈ specs)
    (two : spec.arity = .values 2 negatives) (asked : isGiven given spec.id = true)
    {read : String → β} {f : α → β} {collected : List α}
    (typed : (valuesOf given spec.id).map read = collected.map f) :
    ∃ first second later, collected = first :: second :: later ∧
      collected.length = 2 * occurrences given spec.id ∧
      (later = [] ↔ occurrences given spec.id = 1) := by
  have long : collected.length = 2 * occurrences given spec.id := by
    have same := congrArg List.length typed
    rw [List.length_map, List.length_map, written.length_valuesOf unambiguous member, two] at same
    exact same.symm
  have some : occurrences given spec.id ≠ 0 := of_decide_eq_true asked
  match collected with
  | [] | [_] =>
    simp only [List.length_nil, List.length_cons] at long
    omega
  | first :: second :: later =>
    refine ⟨first, second, later, rfl, long, ?_⟩
    rw [← List.length_eq_zero_iff]
    simp only [List.length_cons] at long
    omega

end

/-! ## Watts to set -/

namespace LimitWriter

def setSpec : OptionSpec Id :=
  { id := .set, long := "set", arity := .values 2 true, repeatable := true }

theorem setSpec_mem : setSpec ∈ specs := List.mem_cons_self

variable {arguments : List String} {given : List (Given Id)} {options : LimitWriter}
  {first second : Binary64}

theorem Orders.isGiven_set (orders : Orders given (.set first second))
    (written : Written specs arguments given) : isGiven given .set = true := by
  have empty : isGiven given .set = false ↔ valuesOf given .set = [] :=
    written.isGiven_eq_false_iff unambiguous (by simp [specs])
  rw [← Bool.not_eq_false, empty]
  intro none
  cases orders with
  | set typed alone =>
    rw [none] at typed
    cases typed

theorem Orders.repeated (orders : Orders given (.set first second)) {text text' : String}
    (known : (Binary64.ofText? text).isSome) (known' : (Binary64.ofText? text').isSome) :
    Orders (given ++ [{ id := .set, values := [text, text'] }]) (.set first second) := by
  cases orders with
  | @set _ _ later typed alone =>
    obtain ⟨watts, read⟩ := Option.isSome_iff_exists.1 known
    obtain ⟨watts', read'⟩ := Option.isSome_iff_exists.1 known'
    have more : (valuesOf (given ++ [{ id := .set, values := [text, text'] }]) .set).map
        Binary64.ofText? = (first :: second :: (later ++ [watts, watts'])).map some := by
      rw [valuesOf_repeated, List.map_append, typed]
      simp [read, read']
    exact .set more ((isGiven_other (by nofun)).trans alone)

/-- A pair that is typed behind another only has to be understood. -/
theorem parse_repeated (parsed : parse arguments = some options)
    (sets : options.order = .set first second) (unended : "--" ∉ arguments) {text text' : String}
    (follows : Follows true text) (follows' : Follows true text')
    (known : (Binary64.ofText? text).isSome) (known' : (Binary64.ofText? text').isSome) :
    parse (arguments ++ ["--set", text, text']) = some options := by
  obtain ⟨given, written, understood⟩ := parse_eq_some_iff.1 parsed
  have orders := understood.order
  rw [sets] at orders
  apply parse_eq_some_iff.2
  refine ⟨_, written.repeated setSpec_mem rfl unended follows follows', ?_⟩
  constructor
  · exact understood.once.repeated unambiguous setSpec_mem rfl
  · exact (isGiven_other (by nofun)).trans understood.no_help
  · rw [sets]
    exact orders.repeated known known'
  · exact (isGiven_other (by nofun)).trans understood.fixedScale
  · exact (valueOf_other (by nofun)).trans understood.offset
  · exact (isGiven_other (by nofun)).trans understood.verbose

end LimitWriter

/-! ## Counts to look for -/

namespace WindowScanner

def unitsSpec : OptionSpec Id :=
  { id := .units, long := "units", arity := .values 2 false, repeatable := true }

theorem unitsSpec_mem : unitsSpec ∈ specs := by simp [specs, unitsSpec]

variable {arguments : List String} {given : List (Given Id)} {options : WindowScanner}

theorem Seeks.repeated {counts : List Nat} {first second : Option Binary64}
    (seeks : Seeks given (some counts) first second) {text text' : String} {count count' : Nat}
    (known : Quantity.units text = .ok count) (known' : Quantity.units text' = .ok count') :
    Seeks (given ++ [{ id := .units, values := [text, text'] }]) (some (counts ++ [count, count']))
      first second := by
  cases seeks with
  | counts asked typed no_first no_second =>
    refine .counts isGiven_repeated ?_ ((isGiven_other (by nofun)).trans no_first)
      ((isGiven_other (by nofun)).trans no_second)
    rw [valuesOf_repeated, List.map_append, typed]
    simp [known, known']

/-- A pair that is typed behind another is kept with it. -/
theorem parse_repeated (parsed : parse arguments = some options) {counts : List Nat}
    (counted : options.units = some counts) (unended : "--" ∉ arguments) {text text' : String}
    (follows : Follows false text) (follows' : Follows false text') {count count' : Nat}
    (known : Quantity.units text = .ok count) (known' : Quantity.units text' = .ok count') :
    parse (arguments ++ ["--units", text, text']) =
      some { options with units := some (counts ++ [count, count']) } := by
  obtain ⟨given, written, understood⟩ := parse_eq_some_iff.1 parsed
  have seeks := understood.seeks
  rw [counted] at seeks
  have any : isGiven (given ++ [{ id := .units, values := [text, text'] }]) .any =
      isGiven given .any := isGiven_other (by nofun)
  apply parse_eq_some_iff.2
  refine ⟨_, written.repeated unitsSpec_mem rfl unended follows follows', ?_⟩
  constructor
  · exact understood.once.repeated unambiguous unitsSpec_mem rfl
  · exact (isGiven_other (by nofun)).trans understood.no_help
  · exact seeks.repeated known known'
  · change _ = if isGiven (given ++ [{ id := .units, values := [text, text'] }]) .any then _ else _
    rw [any]
    exact understood.mode
  · exact (isGiven_other (by nofun)).trans understood.verbose

/-- Of all counts the first two are looked for. -/
theorem prepare_of_pair {first second : Nat} {later : List Nat}
    (counted : options.units = some (first :: second :: later)) (host : Host) (layout : Layout) :
    options.prepare host layout =
      { options with units := some [first, second] }.prepare host layout := by
  obtain ⟨watts, watts', _, mode, verbose⟩ := options
  cases counted
  have units (counts counts' : List Nat) :
      unit { first := watts, second := watts', units := some counts, mode, verbose } host layout =
        unit { first := watts, second := watts', units := some counts', mode, verbose } host
          layout := by
    unfold unit
    cases hardwareUnit host layout <;> rfl
  unfold prepare
  rw [units _ [first, second]]
  rfl

end WindowScanner

/-- An accepted pair of limits is all that was typed for it exactly where it was typed once. Two
values are collected each time that the option is typed. The first two are there and are the ones
that are used; whatever readable pair is typed later is accepted without any effect. A value to
restore is not there beside watts to set, nor watts beside counts to look for. -/
theorem pair_is_whole_iff_typed_once (arguments : List String) :
    (∀ options, LimitWriter.parse arguments = some options →
      ∃ given, CommandLine.parse LimitWriter.specs arguments = some given ∧
        Written LimitWriter.specs arguments given ∧
        ((∃ first second later,
            (valuesOf given .set).map Binary64.ofText? = (first :: second :: later).map some ∧
            options.order = .set first second ∧
            (first :: second :: later).length = 2 * occurrences given .set ∧
            (later = [] ↔ occurrences given .set = 1) ∧
            isGiven given .restore = false ∧
            ∀ text text', Follows true text → Follows true text' →
              (Binary64.ofText? text).isSome → (Binary64.ofText? text').isSome →
              "--" ∉ arguments →
              LimitWriter.parse (arguments ++ ["--set", text, text']) = some options) ∨
          ∃ value, options.order = .restore value ∧
            valueOf given .restore Quantity.word = some (some value) ∧
            isGiven given .set = false)) ∧
    ∀ options, WindowScanner.parse arguments = some options →
      ∃ given, CommandLine.parse WindowScanner.specs arguments = some given ∧
        Written WindowScanner.specs arguments given ∧
        ((∃ first second later,
            (valuesOf given .units).map Quantity.units = (first :: second :: later).map .ok ∧
            options.units = some (first :: second :: later) ∧
            (∀ host layout, options.prepare host layout =
              { options with units := some [first, second] }.prepare host layout) ∧
            (first :: second :: later).length = 2 * occurrences given .units ∧
            (later = [] ↔ occurrences given .units = 1) ∧
            isGiven given .first = false ∧ isGiven given .second = false ∧
            ∀ text text' count count', Follows false text → Follows false text' →
              Quantity.units text = .ok count → Quantity.units text' = .ok count' →
              "--" ∉ arguments →
              WindowScanner.parse (arguments ++ ["--units", text, text']) =
                some { options with units := some (first :: second :: later ++ [count, count']) }) ∨
          options.units = none ∧ isGiven given .units = false) := by
  constructor
  · rintro ⟨order, fixedScale, offset, verbose⟩ parsed
    obtain ⟨given, written, understood⟩ := LimitWriter.parse_eq_some_iff.1 parsed
    have read := (parse_eq_some_iff LimitWriter.unambiguous).2 ⟨written, understood.once⟩
    refine ⟨given, read, written, ?_⟩
    have orders : LimitWriter.Orders given order := understood.order
    have asked {first second : Binary64} (sets : order = .set first second) :
        isGiven given .set = true := (sets ▸ orders).isGiven_set written
    cases orders with
    | @set first second later typed alone =>
      obtain ⟨_, _, _, same, long, whole⟩ :=
        written.pairs LimitWriter.unambiguous LimitWriter.setSpec_mem rfl (asked rfl) typed
      cases same
      refine .inl ⟨first, second, later, typed, rfl, long, whole, alone, ?_⟩
      intro text text' follows follows' known known' unended
      exact LimitWriter.parse_repeated parsed rfl unended follows follows' known known'
    | restore typed alone => exact .inr ⟨_, rfl, typed, alone⟩
  · rintro ⟨watts, watts', units, mode, verbose⟩ parsed
    obtain ⟨given, written, understood⟩ := WindowScanner.parse_eq_some_iff.1 parsed
    have read := (parse_eq_some_iff WindowScanner.unambiguous).2 ⟨written, understood.once⟩
    refine ⟨given, read, written, ?_⟩
    have seeks : WindowScanner.Seeks given units watts watts' := understood.seeks
    cases seeks with
    | counts asked typed no_first no_second =>
      obtain ⟨first, second, later, rfl, long, whole⟩ :=
        written.pairs WindowScanner.unambiguous WindowScanner.unitsSpec_mem rfl asked typed
      refine .inl ⟨first, second, later, typed, rfl, WindowScanner.prepare_of_pair rfl, long,
        whole, no_first, no_second, ?_⟩
      intro text text' count count' follows follows' known known' unended
      exact WindowScanner.parse_repeated parsed rfl unended follows follows' known known'
    | watts alone => exact .inr ⟨rfl, alone⟩

/-- Another option stands between two pairs of watts. -/
def twoPairs : List String :=
  ["-v", "--set", "150", "170", "--offset=0x59A8", "--set", "-4.5", "65e1"]

/-- What is typed there is more than what is used, and a third pair changes nothing. -/
theorem twoPairs_are_not_whole :
    ∃ options given first second later, LimitWriter.parse twoPairs = some options ∧
      CommandLine.parse LimitWriter.specs twoPairs = some given ∧
      (valuesOf given .set).map Binary64.ofText? = (first :: second :: later).map some ∧
      later ≠ [] ∧ options.order = .set first second ∧
      LimitWriter.parse (twoPairs ++ ["--set", "1", "2"]) = some options := by
  have accepted : (LimitWriter.parse twoPairs).isSome := by decide +kernel
  have twice : (CommandLine.parse LimitWriter.specs twoPairs).map (occurrences · .set) = some 2 := by
    decide +kernel
  have follows : Follows true "1" ∧ Follows true "2" := by
    constructor <;> rintro c rest ⟨⟩
  obtain ⟨options, parsed⟩ := Option.isSome_iff_exists.1 accepted
  obtain ⟨given, read, _, typed | ⟨_, _, _, unset⟩⟩ :=
    (pair_is_whole_iff_typed_once twoPairs).1 options parsed
  · obtain ⟨first, second, later, typed, order, _, whole, _, more⟩ := typed
    rw [read] at twice
    have twice : occurrences given .set = 2 := Option.some.inj twice
    refine ⟨options, given, first, second, later, parsed, read, typed, ?_, order, ?_⟩
    · rw [Ne, whole, twice]
      decide
    · exact more "1" "2" follows.1 follows.2 (by decide +kernel) (by decide +kernel) (by decide)
  · rw [read] at twice
    have twice : occurrences given .set = 2 := Option.some.inj twice
    rw [isGiven, twice] at unset
    cases unset

/-- Two pairs are accepted and collected, and the second is used for nothing. -/
theorem second_pair_is_ignored :
    ((CommandLine.parse LimitWriter.specs ["--set", "150", "170", "--set", "45", "65"]).bind
        fun given => (valuesOf given .set).mapM Binary64.ofText?) =
      some ([150, 170, 45, 65].map Binary64.ofNat) ∧
    (LimitWriter.parse ["--set", "150", "170", "--set", "45", "65"]).map LimitWriter.order =
      some (.set (.ofNat 150) (.ofNat 170)) ∧
    (WindowScanner.parse ["--units", "1", "2", "--units", "3", "4"]).map WindowScanner.units =
      some (some [1, 2, 3, 4]) ∧
    ((WindowScanner.parse ["--units", "1", "2", "--units", "3", "4"]).bind fun options =>
        (options.target .eighthWatt).toOption.map Prod.snd) = some "units PL1=0x1 PL2=0x2" := by
  refine ⟨?_, ?_, ?_, ?_⟩ <;> decide +kernel

end PackagePower.CommandLine
