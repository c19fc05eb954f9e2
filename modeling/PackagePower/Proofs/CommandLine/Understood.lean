import PackagePower.CommandLine.LimitWriter
import PackagePower.CommandLine.WindowScanner
import PackagePower.Proofs.CommandLine.Written

/-!
# What arguments amount to

Arguments are accepted where they are written as options of the tool and the options are understood.
For the limit writer and the window scanner this says which arguments they accept, and as what.
-/

namespace PackagePower.CommandLine

section
variable {α β ε : Type}

/-- Everything is read, in order. -/
theorem mapM_eq_some_iff {f : α → Option β} {items : List α} {values : List β} :
    items.mapM f = some values ↔ items.map f = values.map some := by
  induction items generalizing values with
  | nil => cases values <;> simp
  | cons item items ih =>
    rw [List.mapM_cons, Option.bind_eq_bind, Option.bind_eq_some_iff]
    simp only [Option.bind_eq_bind, Option.bind_eq_some_iff, ih]
    cases values with
    | nil => simp
    | cons value values => simp [eq_comm]

theorem mapM_toOption_eq_some_iff {f : α → Except ε β} {items : List α} {values : List β} :
    (items.mapM fun item => (f item).toOption) = some values ↔
      items.map f = values.map Except.ok := by
  have known (result : Except ε β) (value : β) :
      result.toOption = some value ↔ result = .ok value := by
    cases result <;> simp [Except.toOption]
  rw [mapM_eq_some_iff]
  induction items generalizing values with
  | nil => cases values <;> simp
  | cons item items ih => cases values <;> simp [known, ih]

variable {ι : Type} [DecidableEq ι] {given : List (Given ι)} {id : ι} {read : String → Except ε α}

theorem valueOf_eq_none_iff : valueOf given id read = some none ↔ valuesOf given id = [] := by
  unfold valueOf
  split <;> simp_all

theorem valueOf_eq_some_iff {value : α} : valueOf given id read = some (some value) ↔
    ∃ text later, valuesOf given id = text :: later ∧ read text = .ok value := by
  unfold valueOf
  split
  · simp_all
  · rename_i text later typed
    rw [typed, Option.map_eq_some_iff]
    cases known : read text <;> simp_all [Except.toOption]

end

/-! ## The limit writer -/

namespace LimitWriter

theorem unambiguous : Unambiguous specs where
  ids := by simp [specs]
  longs := by simp [specs]
  shorts := by simp [specs]
  named := by simp [specs]
  lettered := by simp [specs]
  valued := by simp [specs]

/-- What the options given order: to set the first two of all watts given, or to restore a value,
and never both. -/
inductive Orders (given : List (Given Id)) : OneShot → Prop where
  | set {first second : Binary64} {later : List Binary64}
      (typed : (valuesOf given .set).map Binary64.ofText? = (first :: second :: later).map some)
      (alone : isGiven given .restore = false) : Orders given (.set first second)
  | restore {value : Word} (typed : valueOf given .restore Quantity.word = some (some value))
      (alone : isGiven given .set = false) : Orders given (.restore value)

/-- The options given are understood as `options`. -/
structure Understood (given : List (Given Id)) (options : LimitWriter) : Prop where
  once : Once specs given
  no_help : isGiven given .help = false
  order : Orders given options.order
  fixedScale : isGiven given .fixedScale = options.fixedScale
  offset : valueOf given .offset Quantity.offset = some options.offset
  verbose : isGiven given .verbose = options.verbose

variable {arguments : List String} {given : List (Given Id)} {order : OneShot}
  {options : LimitWriter}

theorem orders_iff (written : Written specs arguments given) : Orders given order ↔
    ∃ watts value, (valuesOf given .set).mapM Binary64.ofText? = some watts ∧
      valueOf given .restore Quantity.word = some value ∧ orderOf watts value = some order := by
  have unset : isGiven given .set = false ↔ valuesOf given .set = [] :=
    written.isGiven_eq_false_iff unambiguous (by simp [specs])
  have unrestored : isGiven given .restore = false ↔ valuesOf given .restore = [] :=
    written.isGiven_eq_false_iff unambiguous (by simp [specs])
  simp only [mapM_eq_some_iff]
  constructor
  · rintro (⟨typed, alone⟩ | ⟨typed, alone⟩)
    · exact ⟨_, none, typed, valueOf_eq_none_iff.2 (unrestored.1 alone), rfl⟩
    · exact ⟨[], _, by rw [unset.1 alone]; rfl, typed, rfl⟩
  · rintro ⟨watts, value, typed, restored, ordered⟩
    unfold orderOf at ordered
    split at ordered
    · cases ordered
      exact .set typed (unrestored.2 (valueOf_eq_none_iff.1 restored))
    · cases ordered
      exact .restore restored (unset.2 (List.map_eq_nil_iff.1 typed))
    · cases ordered

/-- The arguments that are accepted, and what they amount to. -/
theorem parse_eq_some_iff : parse arguments = some options ↔
    ∃ given, Written specs arguments given ∧ Understood given options := by
  constructor
  · intro parsed
    obtain ⟨given, read, parsed⟩ := Option.bind_eq_some_iff.1 parsed
    obtain ⟨written, once⟩ := (CommandLine.parse_eq_some_iff unambiguous).1 read
    obtain ⟨watts, typed, parsed⟩ := Option.bind_eq_some_iff.1 parsed
    obtain ⟨value, restored, parsed⟩ := Option.bind_eq_some_iff.1 parsed
    obtain ⟨offset, placed, parsed⟩ := Option.bind_eq_some_iff.1 parsed
    obtain ⟨order, ordered, parsed⟩ := Option.bind_eq_some_iff.1 parsed
    split at parsed
    · cases parsed
    · rename_i no_help
      cases parsed
      refine ⟨given, written, once, eq_false_of_ne_true no_help, ?_, rfl, placed, rfl⟩
      exact (orders_iff written).2 ⟨watts, value, typed, restored, ordered⟩
  · rintro ⟨given, written, understood⟩
    obtain ⟨watts, value, typed, restored, ordered⟩ := (orders_iff written).1 understood.order
    have read := (CommandLine.parse_eq_some_iff unambiguous).2 ⟨written, understood.once⟩
    simp [parse, read, typed, restored, understood.offset, ordered, understood.no_help,
      understood.fixedScale, understood.verbose]

end LimitWriter

/-! ## The window scanner -/

namespace WindowScanner

theorem unambiguous : Unambiguous specs where
  ids := by simp [specs]
  longs := by simp [specs]
  shorts := by simp [specs]
  named := by simp [specs]
  lettered := by simp [specs]
  valued := by simp [specs]

/-- What the options given look for: all counts given, or watts, and never both. -/
inductive Seeks (given : List (Given Id)) :
    Option (List Nat) → Option Binary64 → Option Binary64 → Prop where
  | counts {counts : List Nat} (asked : isGiven given .units = true)
      (typed : (valuesOf given .units).map Quantity.units = counts.map .ok)
      (no_first : isGiven given .first = false) (no_second : isGiven given .second = false) :
      Seeks given (some counts) none none
  | watts {first second : Option Binary64} (alone : isGiven given .units = false)
      (first_typed : valueOf given .first Quantity.watts = some first)
      (second_typed : valueOf given .second Quantity.watts = some second) :
      Seeks given none first second

/-- The options given are understood as `options`. -/
structure Understood (given : List (Given Id)) (options : WindowScanner) : Prop where
  once : Once specs given
  no_help : isGiven given .help = false
  seeks : Seeks given options.units options.first options.second
  mode : options.mode = if isGiven given .any then .any else .enabled
  verbose : isGiven given .verbose = options.verbose

variable {arguments : List String} {given : List (Given Id)} {options : WindowScanner}

theorem seeks_iff (written : Written specs arguments given) {units : Option (List Nat)}
    {first second : Option Binary64} : Seeks given units first second ↔
    ∃ counts, (valuesOf given .units).mapM (fun text => (Quantity.units text).toOption) = some counts ∧
      valueOf given .first Quantity.watts = some first ∧
      valueOf given .second Quantity.watts = some second ∧
      units = (if isGiven given .units then some counts else none) ∧
      (units.isSome && (first.isSome || second.isSome)) = false := by
  have unfirst : isGiven given .first = false ↔ valuesOf given .first = [] :=
    written.isGiven_eq_false_iff unambiguous (by simp [specs])
  have unsecond : isGiven given .second = false ↔ valuesOf given .second = [] :=
    written.isGiven_eq_false_iff unambiguous (by simp [specs])
  have uncounted : isGiven given .units = false ↔ valuesOf given .units = [] :=
    written.isGiven_eq_false_iff unambiguous (by simp [specs])
  simp only [mapM_toOption_eq_some_iff]
  constructor
  · rintro (⟨asked, typed, no_first, no_second⟩ | ⟨alone, first_typed, second_typed⟩)
    · exact ⟨_, typed, valueOf_eq_none_iff.2 (unfirst.1 no_first),
        valueOf_eq_none_iff.2 (unsecond.1 no_second), by rw [if_pos asked], rfl⟩
    · exact ⟨[], by rw [uncounted.1 alone]; rfl, first_typed, second_typed,
        by rw [if_neg (ne_true_of_eq_false alone)], rfl⟩
  · rintro ⟨counts, typed, first_typed, second_typed, rfl, apart⟩
    by_cases asked : isGiven given .units = true
    · rw [if_pos asked] at apart ⊢
      obtain ⟨no_first, no_second⟩ : first = none ∧ second = none := by simpa using apart
      subst no_first no_second
      exact .counts asked typed (unfirst.2 (valueOf_eq_none_iff.1 first_typed))
        (unsecond.2 (valueOf_eq_none_iff.1 second_typed))
    · rw [if_neg asked]
      exact .watts (eq_false_of_ne_true asked) first_typed second_typed

/-- The arguments that are accepted, and what they amount to. -/
theorem parse_eq_some_iff : parse arguments = some options ↔
    ∃ given, Written specs arguments given ∧ Understood given options := by
  constructor
  · intro parsed
    obtain ⟨given, read, parsed⟩ := Option.bind_eq_some_iff.1 parsed
    obtain ⟨written, once⟩ := (CommandLine.parse_eq_some_iff unambiguous).1 read
    obtain ⟨first, first_typed, parsed⟩ := Option.bind_eq_some_iff.1 parsed
    obtain ⟨second, second_typed, parsed⟩ := Option.bind_eq_some_iff.1 parsed
    obtain ⟨counts, typed, parsed⟩ := Option.bind_eq_some_iff.1 parsed
    dsimp only at parsed
    generalize asked : (if isGiven given .units = true then some counts else none) = units at parsed
    split at parsed
    · cases parsed
    · rename_i accepted
      cases parsed
      obtain ⟨no_help, apart⟩ := Bool.or_eq_false_iff.1 (eq_false_of_ne_true accepted)
      refine ⟨given, written, once, no_help, ?_, rfl, rfl⟩
      exact (seeks_iff written).2 ⟨counts, typed, first_typed, second_typed, asked.symm, apart⟩
  · rintro ⟨given, written, understood⟩
    obtain ⟨counts, typed, first_typed, second_typed, asked, apart⟩ :=
      (seeks_iff written).1 understood.seeks
    have read := (CommandLine.parse_eq_some_iff unambiguous).2 ⟨written, understood.once⟩
    unfold parse
    rw [read]
    simp only [Option.bind_eq_bind, Option.bind_some, typed, first_typed, second_typed, ← asked,
      understood.no_help, apart, Bool.or_self, Bool.false_eq_true, if_false, ← understood.mode,
      understood.verbose]

end WindowScanner
end PackagePower.CommandLine
