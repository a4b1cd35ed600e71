import NodeGroups.Group.Error

/-!
# Reports of refresh passes

Which groups a pass got a new view of, and why it did not for others. Groups are in the order of
their names, so that a report does not show in which order they were done.
-/

namespace NodeGroups

/-- What came of a refresh pass. -/
structure Report where
  refreshed : List String
  failed : List (String × GroupError)
  /-- The pass came too soon and was dropped. -/
  skipped : Bool
  deriving DecidableEq

namespace Report

def empty : Report := ⟨[], [], false⟩

/-- The report of a pass that was dropped. -/
def dropped : Report := ⟨[], [], true⟩

def isClean (r : Report) : Bool := r.failed.isEmpty

/-- The groups that were refreshed, among results. -/
def refreshedOf (results : List (String × Except GroupError Unit)) : List String :=
  results.filterMap fun r ↦ match r.2 with
    | .ok () => some r.1
    | .error _ => none

/-- The groups that were not refreshed, among results, with the reasons. -/
def failedOf (results : List (String × Except GroupError Unit)) :
    List (String × GroupError) :=
  results.filterMap fun r ↦ match r.2 with
    | .ok () => none
    | .error e => some (r.1, e)

/-- The report of a pass with results for its groups. -/
def ofResults (results : List (String × Except GroupError Unit)) : Report where
  refreshed := (refreshedOf results).mergeSort fun a b ↦ ¬ b < a
  failed := (failedOf results).mergeSort fun a b ↦ ¬ b.1 < a.1
  skipped := false

end Report

end NodeGroups
