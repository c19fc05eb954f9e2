import PackagePower.Proofs.Device.Zone
import PackagePower.Proofs.Host.Agree

/-!
# Zones on two hosts

A zone is its two constraints: what stands at their paths, and whether they can be reached. Where
two hosts have these in common the zone reads the same on both, and a write fails the same on both
or lands on both, whatever else the hosts hold.
-/

namespace PackagePower.Zone

/-- Both hosts have the same at the paths of both constraints. -/
def Alike (zone : Zone) (host other : Host) : Prop :=
  ∀ index, Host.SameAt host other (zone.constraint index).names

namespace Alike

variable {zone : Zone} {host other : Host}

theorem refl (zone : Zone) (host : Host) : zone.Alike host host := fun _ => .refl _ _

theorem symm (alike : zone.Alike host other) : zone.Alike other host :=
  fun index => (alike index).symm

theorem trans {third : Host} (first : zone.Alike host other) (second : zone.Alike other third) :
    zone.Alike host third := fun index => (first index).trans (second index)

theorem readConstraint (alike : zone.Alike host other) (index : LimitIndex) :
    zone.readConstraint host index = zone.readConstraint other index :=
  readConstraint_congr (alike index).readText_eq.symm

theorem read (alike : zone.Alike host other) : zone.read host = zone.read other := by
  unfold Zone.read
  rw [alike.readConstraint, alike.readConstraint]

theorem update (alike : zone.Alike host other) {file : FileId} (change : Contents → Contents)
    (apart : ∀ index, file.names ≠ (zone.constraint index).names) :
    zone.Alike (host.update file change) other :=
  fun index => (alike index).update change (apart index).symm

/-- The same value written to the same constraint, whichever files that is on the two hosts. -/
theorem holding (alike : zone.Alike host other) {index : LimitIndex} {file file' : FileId}
    (stands : host.handle? (zone.constraint index).names = some (.file file))
    (stands' : other.handle? (zone.constraint index).names = some (.file file')) (value : UInt64) :
    zone.Alike (holding host file value) (holding other file' value) := by
  have found {host : Host} {file : FileId}
      (stands : host.handle? (zone.constraint index).names = some (.file file)) :
      (Zone.holding host file value).find? (zone.constraint index).names =
        some (.file (.ofText (Text.decimal value.toNat))) := by
    refine Host.find?_eq_file_iff.2 ⟨file, stands, ?_⟩
    unfold Zone.holding
    rw [Host.contents_update, if_pos rfl]
  intro sought
  by_cases same : sought = index
  · subst same
    exact ⟨(found stands').trans (found stands).symm, (alike sought).below⟩
  · have left : (Zone.holding host file value).find? (zone.constraint sought).names = _ :=
      Host.find?_update_apart (names_apart same stands)
    have right : (Zone.holding other file' value).find? (zone.constraint sought).names = _ :=
      Host.find?_update_apart (names_apart same stands')
    exact ⟨right.trans ((alike sought).here.trans left.symm), (alike sought).below⟩

/-- A write of one constraint fails the same on both hosts, or lands on both. -/
theorem writeConstraint (alike : zone.Alike host other) (index : LimitIndex) (value : UInt64) :
    (∃ fault, zone.writeConstraint host index value = .error fault ∧
        zone.writeConstraint other index value = .error fault) ∨
      ∃ after left, zone.writeConstraint host index value = .ok after ∧
        zone.writeConstraint other index value = .ok left ∧ zone.Alike after left := by
  rcases (alike index).writeText_eq (Text.decimal value.toNat) with
    ⟨cause, failed, failed'⟩ | ⟨file, file', stands, stands'⟩
  · refine .inl ⟨.transfer .write (zone.constraint index).text cause, ?_, ?_⟩
    · exact congrArg (Except.mapError _) failed
    · exact congrArg (Except.mapError _) failed'
  · exact .inr ⟨_, _, writeConstraint_of_file stands value, writeConstraint_of_file stands' value,
      alike.holding stands stands' value⟩

theorem write (alike : zone.Alike host other) (limits : ZoneLimits) :
    (zone.write host limits).1 = (zone.write other limits).1 ∧
      zone.Alike (zone.write host limits).2 (zone.write other limits).2 := by
  unfold Zone.write Zone.writeWith
  split
  · exact ⟨rfl, alike⟩
  · rw [alike.readConstraint]
    cases zone.readConstraint other .first with
    | error fault => exact ⟨rfl, alike⟩
    | ok previous =>
      dsimp only
      rcases alike.writeConstraint .first limits.first with
        ⟨fault, failed, failed'⟩ | ⟨half, half', wrote, wrote', alike₁⟩
      · rw [failed, failed']
        exact ⟨rfl, alike⟩
      · rw [wrote, wrote']
        dsimp only
        rcases alike₁.writeConstraint .second limits.second with
          ⟨fault, failed, failed'⟩ | ⟨whole, whole', wrote, wrote', alike₂⟩
        · rw [failed, failed']
          refine ⟨rfl, ?_⟩
          rcases alike₁.writeConstraint .first previous with
            ⟨fault, failed, failed'⟩ | ⟨back, back', wrote, wrote', alike₂⟩
          · rw [failed, failed']
            exact alike₁
          · rw [wrote, wrote']
            exact alike₂
        · rw [wrote, wrote']
          exact ⟨rfl, alike₂⟩

end Alike
end PackagePower.Zone
