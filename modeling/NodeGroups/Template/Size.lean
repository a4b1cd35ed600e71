import NodeGroups.Text.Case

/-!
# Machine sizes

What common machine sizes of the cloud offer. The names of sizes are found in any letter case;
a size that is not listed is simply not known.
-/

namespace NodeGroups

/-- What a machine of some size offers. -/
structure MachineSize where
  processors : Int64
  memoryMiB : Int64
  /-- The number of graphics processors. -/
  graphics : Int64
  deriving DecidableEq, Repr

namespace MachineSize

/-- The known sizes by name. -/
def known : List (String × MachineSize) :=
  [("Standard_B2s", ⟨2, 4096, 0⟩), ("Standard_B4ms", ⟨4, 16384, 0⟩),
    ("Standard_D2s_v3", ⟨2, 8192, 0⟩), ("Standard_D4s_v3", ⟨4, 16384, 0⟩),
    ("Standard_D8s_v3", ⟨8, 32768, 0⟩), ("Standard_D16s_v3", ⟨16, 65536, 0⟩),
    ("Standard_DS2_v2", ⟨2, 7168, 0⟩), ("Standard_DS3_v2", ⟨4, 14336, 0⟩),
    ("Standard_E4s_v3", ⟨4, 32768, 0⟩), ("Standard_F4s_v2", ⟨4, 8192, 0⟩),
    ("Standard_NC6", ⟨6, 57344, 1⟩), ("Standard_NC12", ⟨12, 114688, 2⟩)]

def find? (name : String) : Option MachineSize :=
  (known.find? fun e ↦ Text.SameName e.1 name).map Prod.snd

end MachineSize

end NodeGroups
