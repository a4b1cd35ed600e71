import NodeGroups.Proofs.Planning

/-!
# Finding instances

An instance is found in a view under the provider ID that it was listed with, if no instance after
it in the listing has the same.
-/

namespace NodeGroups

theorem Cache.get?_build_concat (d : ScaleSet) (listing : List Instance) {i : Instance}
    {id : ProviderId} (hkey : i.key = id.key) :
    (build d (listing ++ [i])).get? id = some i.normalized := by
  have hindex : (build d (listing ++ [i])).index
      = (Dict.ofList (listing.map Instance.key).zipIdx).insert i.key listing.length := by
    rw [← Dict.ofList_concat, build]
    simp [List.zipIdx_append]
  rw [get?, hindex, hkey, Dict.get?_insert_self, Option.bind_some, instances_build,
    List.map_append, List.getElem?_append_right (by simp)]
  simp

/-- After a deletion was accepted the same instances are found, with their new states. -/
theorem Cache.get?_markDeleting (c : Cache) (ids : List String) (id : ProviderId) :
    (c.markDeleting ids).get? id
      = (c.get? id).map fun i ↦
        if i.instanceId ∈ ids then { i with state := .deleting } else i := by
  rw [get?, get?, Option.map_bind]
  refine congrArg (Option.bind _) (funext fun position ↦ ?_)
  exact List.getElem?_map

theorem Instance.key_eq {i : Instance} {id : ProviderId}
    (hparse : ProviderId.parse? i.providerId = some id) : i.key = id.key := by
  rw [key, hparse]

namespace Group

variable {g : Group}

theorem resolve_build_concat (d : ScaleSet) (listing : List Instance) {i : Instance}
    {node : Node} {id : ProviderId} (hnode : ProviderId.parse? node.providerId = some id)
    (hin : id.IsIn g.resourceGroup g.name) (hkey : i.key = id.key) :
    g.resolve (.build d (listing ++ [i])) node = .ok i.normalized := by
  have hfind : g.instanceOf? (.build d (listing ++ [i])) node = some i.normalized := by
    rw [instanceOf?, hnode, Option.bind_some, Cache.find?, if_pos hin]
    exact Cache.get?_build_concat d listing hkey
  rw [resolve, hfind]

theorem plan_delete {s : State} {v : View} {nodes : List Node} (hview : s.view = some v)
    (hfault : (Mutation.delete nodes).fault? = none) :
    Mutation.plan g s (.delete nodes) = g.planDelete v nodes := by
  rw [Mutation.plan, hfault, State.requireView, hview]
  rfl

theorem plan_decrease {s : State} {v : View} {delta : UInt32} (hview : s.view = some v)
    (hpos : delta ≠ 0) :
    Mutation.plan g s (.decrease delta) = (g.planDecrease v delta).map some := by
  rw [Mutation.plan, Mutation.fault?, if_neg hpos, State.requireView, hview]
  rfl

/-- A deletion is planned if its nodes are known, some of them are not on their way out, and the
bound allows for it. -/
theorem planDelete_eq {v : View} {nodes : List Node} {instances : List Instance}
    (hresolve : nodes.mapM (g.resolve v.cache) = .ok instances)
    (hsome : deletable [] instances ≠ [])
    (hmin : (deletable [] instances).length + g.minSize.toNat ≤ v.target.toNat) :
    g.planDelete v nodes = .ok (some (.delete (deletable [] instances)
      (.ofNat (v.target.toNat - (deletable [] instances).length)))) := by
  have hcount : (clampSize (deletable [] instances).length).toNat
      = (deletable [] instances).length := by
    have hlt := v.target.toNat_lt
    exact toNat_clampSize_of_lt (by omega)
  rw [planDelete, hresolve]
  change (if deletable [] instances = [] then _ else _) = _
  rw [if_neg hsome, hcount, if_neg (by omega)]

end Group

end NodeGroups
