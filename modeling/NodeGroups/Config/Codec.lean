import NodeGroups.Config.Basic
import NodeGroups.Datum.Basic

/-!
# Data form of the configuration

The configuration as a tree of data, which a TOML file or a JSON text may hold. The refresh
settings and the node groups may be left out.
-/

namespace NodeGroups

open Datum (Surplus)

namespace GroupConfig

def toDatum (g : GroupConfig) : Datum :=
  .record [("name", .text g.name), ("min_size", .ofSize g.minSize),
    ("max_size", .ofSize g.maxSize), ("refresh_period", .ofOption .text g.refreshPeriod)]

def ofDatum? (surplus : Surplus) (d : Datum) : Option GroupConfig := do
  let fs ← d.fields? surplus 4
  let name ← fs.required? 0 "name" Datum.text?
  let minSize ← fs.required? 1 "min_size" Datum.size?
  let maxSize ← fs.required? 2 "max_size" Datum.size?
  let refreshPeriod ← fs.optional? 3 "refresh_period" Datum.text?
  pure { name, minSize, maxSize, refreshPeriod }

end GroupConfig

namespace RefreshConfig

def toDatum (r : RefreshConfig) : Datum :=
  .record [("default_period", .ofOption .text r.defaultPeriod),
    ("group_timeout", .ofOption .text r.groupTimeout),
    ("min_interval", .ofOption .text r.minInterval)]

def ofDatum? (surplus : Surplus) (d : Datum) : Option RefreshConfig := do
  let fs ← d.fields? surplus 3
  let defaultPeriod ← fs.optional? 0 "default_period" Datum.text?
  let groupTimeout ← fs.optional? 1 "group_timeout" Datum.text?
  let minInterval ← fs.optional? 2 "min_interval" Datum.text?
  pure { defaultPeriod, groupTimeout, minInterval }

end RefreshConfig

namespace ProviderConfig

def toDatum (c : ProviderConfig) : Datum :=
  .record [("subscription_id", .text c.subscriptionId), ("resource_group", .text c.resourceGroup),
    ("refresh", c.refresh.toDatum), ("node_groups", .ofList GroupConfig.toDatum c.nodeGroups)]

def ofDatum? (surplus : Surplus) (d : Datum) : Option ProviderConfig := do
  let fs ← d.fields? surplus 4
  let subscriptionId ← fs.required? 0 "subscription_id" Datum.text?
  let resourceGroup ← fs.required? 1 "resource_group" Datum.text?
  let refresh ← fs.defaulted? 2 "refresh" RefreshConfig.unset (RefreshConfig.ofDatum? surplus)
  let nodeGroups ← fs.defaulted? 3 "node_groups" [] (Datum.list? (GroupConfig.ofDatum? surplus))
  pure { subscriptionId, resourceGroup, refresh, nodeGroups }

end ProviderConfig

end NodeGroups
