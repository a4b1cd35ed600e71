/-!
# Letter case

Cloud resource names are compared without regard to the case of ASCII letters, and of no other
letters: `Ä` and `ä` are different names.
-/

namespace NodeGroups.Text

/-- The text with its ASCII capitals made small. -/
def foldCase (s : String) : String := s.map Char.toLower

/-- Two names that differ in the case of ASCII letters at most. -/
def SameName (a b : String) : Prop := foldCase a = foldCase b

instance (a b : String) : Decidable (SameName a b) := inferInstanceAs (Decidable (_ = _))

theorem SameName.refl (a : String) : SameName a a := rfl

theorem SameName.symm {a b : String} (h : SameName a b) : SameName b a := Eq.symm h

theorem SameName.trans {a b c : String} (h : SameName a b) (h' : SameName b c) : SameName a c :=
  Eq.trans h h'

@[simp] theorem toList_foldCase (s : String) : (foldCase s).toList = s.toList.map Char.toLower := by
  simp [foldCase]

theorem sameName_iff {a b : String} :
    SameName a b ↔ a.toList.map Char.toLower = b.toList.map Char.toLower := by
  rw [SameName, ← String.toList_inj, toList_foldCase, toList_foldCase]

theorem toNat_toLower (c : Char) :
    c.toLower.toNat = if 65 ≤ c.toNat ∧ c.toNat ≤ 90 then c.toNat + 32 else c.toNat := by
  delta Char.toLower
  split
  · next hcapital =>
    have hbounds : 65 ≤ c.toNat ∧ c.toNat ≤ 90 := hcapital
    rw [if_pos hbounds]
    change (c.val + 32).toNat = c.val.toNat + 32
    have hval : c.val.toNat = c.toNat := rfl
    have hletters : (32 : UInt32).toNat = 32 := rfl
    rw [UInt32.toNat_add, hletters]
    omega
  · next hother => exact (if_neg hother).symm

/-- What is not among the letters of ASCII is the small form of itself only. -/
theorem toLower_eq_iff {c d : Char} (hd : d.toNat < 65 ∨ 122 < d.toNat) :
    c.toLower = d ↔ c = d := by
  rw [← Char.toNat_inj, toNat_toLower, ← Char.toNat_inj]
  split <;> omega

theorem toLower_eq_slash_iff {c : Char} : c.toLower = '/' ↔ c = '/' :=
  toLower_eq_iff (.inl (by decide))

theorem toLower_toLower (c : Char) : c.toLower.toLower = c.toLower := by
  rw [← Char.toNat_inj, toNat_toLower, if_neg]
  rw [toNat_toLower]
  split <;> omega

end NodeGroups.Text
