import PackagePower.CommandLine.Terminal
import PackagePower.Proofs.Host.Update
import PackagePower.Proofs.OneShot

/-!
# A window under a run

A run that sets or restores reads one register, writes it and reads it again. What it leaves
behind is the host with that register stored; nothing else about the host matters.
-/

namespace PackagePower

namespace Window

variable {window : Window} {host after : Host} {offset : Nat} {value : Word}

/-- The host once `value` is stored at `offset`. -/
def stored (window : Window) (host : Host) (offset : Nat) (value : Word) : Host :=
  host.update window.memory fun contents => contents.store (window.base.toNat + offset) value

/-- The register at `offset` is in the window, and memory ends before the page it ends in. -/
def Lacks (window : Window) (host : Host) (offset : Nat) : Prop :=
  offset % 4 = 0 ∧ offset + 8 ≤ window.size ∧
    (host.contents window.memory).size ≤ (window.base.toNat + offset + 7) / 4096 * 4096

theorem lacks_iff : window.lacks host offset = true ↔ window.Lacks host offset := by
  unfold lacks Lacks contains
  simp only [Bool.and_eq_true, decide_eq_true_eq, and_assoc]
  exact Iff.rfl

theorem lacks_eq_false_iff : window.lacks host offset = false ↔ ¬ window.Lacks host offset := by
  rw [← lacks_iff, Bool.not_eq_true]

/-- A store leaves memory as long as it was. -/
theorem lacks_stored (other : Nat) :
    window.lacks (window.stored host offset value) other = window.lacks host other := by
  unfold lacks stored
  rw [Host.contents_update, if_pos rfl, Contents.size_store]

theorem read_eq_ok : window.read host offset = .ok value ↔
    window.contains offset = true ∧ value = window.register host offset := by
  unfold read
  split
  · rename_i inside
    simp [inside, eq_comm]
  · rename_i outside
    simp [outside]

theorem write_eq_ok (writable : window.access = .readWrite) :
    window.write host offset value = .ok after ↔
      window.contains offset = true ∧ after = window.stored host offset value := by
  unfold write
  rw [writable, if_neg (by decide)]
  split
  · rename_i inside
    simp [inside, stored, eq_comm]
  · rename_i outside
    simp [outside]

theorem register_stored
    (backed : window.base.toNat + offset + 8 ≤ (host.contents window.memory).size) :
    window.register (window.stored host offset value) offset = value := by
  have read := Contents.read_store backed value
  rw [Contents.read_eq_complete_iff] at read
  unfold register stored
  rw [Host.contents_update, if_pos rfl]
  exact read.2.symm

theorem register_stored_apart {other : Nat} (apart : other + 8 ≤ offset ∨ offset + 8 ≤ other) :
    window.register (window.stored host offset value) other = window.register host other := by
  unfold register stored
  rw [Host.contents_update, if_pos rfl]
  apply Word.ofBytes_congr
  intro index inside
  exact Contents.byte_store_outside _ _ (by omega)

theorem replied_eq_ok {result : Except Fault Host} :
    replied host result = (.ok (), after) ↔ result = .ok after := by
  cases result with
  | ok left => simp [replied]
  | error fault => simp [replied]

end Window

/-! ## Replays -/

variable {ω : Type} {operator : Operator ω} {station : Station Host} {world last : ω × Host}

theorem replays_mismatch {place : String} {target after : Word} :
    (operator.at station).Replays world (OneShot.mismatch place target after) last ↔
      last = world := by
  unfold OneShot.mismatch
  split
  · constructor
    · rintro ⟨next, answered, rfl⟩
      exact (congrArg Prod.snd answered).symm
    · rintro rfl
      exact ⟨_, rfl, rfl⟩
  · exact Iff.rfl

/-- What a run of one order finds and leaves through a window that can be written. -/
theorem OneShot.course_replays {order : OneShot} {unit : PowerUnit} {place command : String}
    {found target after : Word} {window : Window} {offset : Nat} {zone : Zone}
    (writable : window.access = .readWrite) :
    (operator.at (window.station offset zone)).Replays world
        (order.course unit place command found target after) last ↔
      window.contains offset = true ∧ found = window.register world.2 offset ∧
        after = window.register (window.stored world.2 offset target) offset ∧
        last = (world.1, window.stored world.2 offset target) := by
  unfold course
  constructor
  · rintro ⟨middle, read, rest⟩
    have found_eq : window.read world.2 offset = .ok found := congrArg Prod.fst read
    obtain rfl : world = middle := congrArg Prod.snd read
    obtain ⟨next, wrote, final, again, trailing⟩ := Handler.replays_lines.1 rest
    have left : (world.1, (replied world.2 (window.write world.2 offset target)).2) = next :=
      congrArg Prod.snd wrote
    have status : (replied world.2 (window.write world.2 offset target)).1 = .ok () :=
      congrArg Prod.fst wrote
    have host : (replied world.2 (window.write world.2 offset target)).2 = next.2 :=
      congrArg Prod.snd left
    have landed : replied world.2 (window.write world.2 offset target) = (.ok (), next.2) :=
      Prod.ext status host
    obtain ⟨inside, stored⟩ := (Window.write_eq_ok writable).1 (Window.replied_eq_ok.1 landed)
    have after_eq : window.read next.2 offset = .ok after := congrArg Prod.fst again
    obtain rfl : next = final := congrArg Prod.snd again
    have ended : next = (world.1, window.stored world.2 offset target) :=
      Prod.ext (congrArg Prod.fst left).symm stored
    refine ⟨inside, (Window.read_eq_ok.1 found_eq).2, ?_, ?_⟩
    · rw [← stored]
      exact (Window.read_eq_ok.1 after_eq).2
    · rw [← ended]
      exact replays_mismatch.1 trailing
  · rintro ⟨inside, rfl, rfl, rfl⟩
    have wrote : window.write world.2 offset target = .ok (window.stored world.2 offset target) :=
      (Window.write_eq_ok writable).2 ⟨inside, rfl⟩
    have left : replied world.2 (window.write world.2 offset target) =
        (.ok (), window.stored world.2 offset target) := Window.replied_eq_ok.2 wrote
    refine ⟨world, ?_, Handler.replays_lines.2 ⟨(world.1, window.stored world.2 offset target), ?_,
      (world.1, window.stored world.2 offset target), ?_, replays_mismatch.2 rfl⟩⟩
    · exact congrArg (·, world) (Window.read_eq_ok.2 ⟨inside, rfl⟩)
    · exact congrArg (fun reply => (reply.1, world.1, reply.2)) left
    · exact congrArg (·, world.1, window.stored world.2 offset target)
        (Window.read_eq_ok.2 ⟨inside, rfl⟩)

end PackagePower
