import NodeGroups.Cloud.Error
import NodeGroups.Config.Error
import NodeGroups.Duration

/-!
# Errors of node groups

Why a request on a node group or on the registry of groups fails. The autoscaler reacts to the
kind of an error, of which there are five; its description is for people. Errors that the groups
find themselves are told apart by their cause; errors of the cloud keep the cloud's words.
-/

namespace NodeGroups

/-- The kinds of errors that the autoscaler tells apart. -/
inductive ErrorKind
  | invalidArgument
  | notFound
  | stateNotReady
  | remoteRejected
  | remoteUnavailable
  deriving DecidableEq, Repr

/-- What a message opens with, by the kind of the error. -/
def ErrorKind.label : ErrorKind → String
  | invalidArgument => "invalid argument"
  | notFound => "not found"
  | stateNotReady => "state not ready"
  | remoteRejected => "rejected by cloud API"
  | remoteUnavailable => "cloud API unavailable"

/-- Why a request on a node group fails. -/
inductive GroupError
  /-- A group needs a name. -/
  | emptyName
  /-- A group's least size must not exceed its greatest. -/
  | invertedBounds (name : String) (minSize maxSize : UInt32)
  /-- The configuration of the group cannot be used. -/
  | badConfig (error : ConfigError)
  /-- The group has no view of the cloud yet. -/
  | notPopulated (group : String)
  | increaseNotPositive
  | increaseTooLarge (desired : Nat) (maxSize : UInt32)
  | decreaseNotPositive
  | decreaseTooLarge (target delta : UInt32)
  /-- A decrease must not reach instances that exist. -/
  | belowLive (desired live : Nat)
  | belowMinSize (desired : Nat) (minSize : UInt32)
  /-- Deleting this many instances would take the group below its least size. -/
  | deletionBelowMinSize (count : Nat) (group : String) (minSize target : UInt32)
  /-- The node is not one of the group's instances. -/
  | unknownNode (node group : String)
  /-- The text is not the provider ID of a scale set machine. -/
  | malformedId (text : String)
  | unregistered (name : String)
  /-- The group's refresh took longer than it may. -/
  | timedOut (group : String) (timeout : Duration)
  /-- The group's refresh broke down. -/
  | brokeDown
  /-- The cloud did not carry out the call. -/
  | cloud (error : CloudError)
  /-- An error that another component reports in its own words. -/
  | reported (kind : ErrorKind) (detail : String)
  deriving DecidableEq, Repr

namespace GroupError

def kind : GroupError → ErrorKind
  | emptyName | invertedBounds .. | badConfig _ | increaseNotPositive | increaseTooLarge ..
  | decreaseNotPositive | decreaseTooLarge .. | belowLive .. | belowMinSize ..
  | deletionBelowMinSize .. | malformedId _ => .invalidArgument
  | notPopulated _ => .stateNotReady
  | unknownNode .. | unregistered _ | cloud (.notFound _) => .notFound
  | timedOut .. | brokeDown | cloud (.unavailable _) => .remoteUnavailable
  | cloud (.conflict _) | cloud (.rejected _) => .remoteRejected
  | reported kind _ => kind

def detail : GroupError → String
  | emptyName => "scale set name must not be empty"
  | invertedBounds name minSize maxSize =>
    s!"scale set {name}: min size {minSize} exceeds max size {maxSize}"
  | badConfig error => error.message
  | notPopulated group => s!"scale set {group} has not been refreshed yet"
  | increaseNotPositive => "size increase must be positive"
  | increaseTooLarge desired maxSize =>
    s!"size increase too large: desired {desired} exceeds max {maxSize}"
  | decreaseNotPositive => "size decrease must be positive"
  | decreaseTooLarge target delta => s!"cannot decrease target size {target} by {delta}"
  | belowLive desired live =>
    s!"attempt to delete existing nodes: target size {desired} is below {live} live instances"
  | belowMinSize desired minSize =>
    s!"target size {desired} would be below min size {minSize}"
  | deletionBelowMinSize count group minSize target =>
    s!"deleting {count} nodes would take scale set {group} below min size {minSize} "
      ++ s!"(target {target})"
  | unknownNode node group => s!"node {node} does not belong to scale set {group}"
  | malformedId text => Text.quoted text ++ " is not a scale set VM provider ID"
  | unregistered name => s!"node group {name} is not registered"
  | timedOut group timeout => s!"refresh of {group} timed out after " ++ timeout.print
  | brokeDown => "refresh task failed"
  | cloud (.conflict detail) => "conflict: " ++ detail
  | cloud (.notFound detail) | cloud (.rejected detail) | cloud (.unavailable detail) => detail
  | reported _ detail => detail

def message (e : GroupError) : String := e.kind.label ++ ": " ++ e.detail

end GroupError

end NodeGroups
