/-
The identity of a node and its cluster, as callers give it or as settings and the machine itself
supply it.
-/
import AuditTrail.Settings.Basic

namespace AuditTrail

/-- The identity of a node. Its parts come from callers and may be of any type; a record refuses
those that are no texts. -/
structure Cluster where
  nodeId : Value
  hostAddress : Value
  hostName : Value
  nodeName : Value
  clusterName : Value

namespace Cluster

/-- The address of a machine whose name has none. -/
def loopback : Text := "127.0.0.1".toList

/-- A text unless it is missing or empty, or else another. -/
def orElse (s : Option Text) (other : Text) : Text :=
  match s with
  | some (c :: rest) => c :: rest
  | _ => other

/-- The name of the machine that settings describe. -/
def hostNameOf (h : Host) (s : Settings) : Text := orElse s.nodeHostName h.name

/-- The address of the machine that settings describe: their own, or the one of its name. -/
def addressOf (h : Host) (s : Settings) : Except Fault Text :=
  match s.nodeHostAddress with
  | some address => .ok address
  | none =>
    match h.lookup (hostNameOf h s) with
    | .found address => .ok address
    | .unknown => .ok loopback
    | .refused family message => .error (.hostName family message)

/-- The identity that settings describe; what they leave open comes from the machine. -/
def ofSettings (h : Host) (s : Settings) : Except Fault Cluster := do
  let address ← addressOf h s
  .ok
    { nodeId := .text (orElse s.nodeId h.freshId)
      hostAddress := .text address
      hostName := .text (hostNameOf h s)
      nodeName := .text (orElse s.nodeName (hostNameOf h s))
      clusterName := .text s.clusterName }

/-- The parts of an identity, in order. -/
def parts (c : Cluster) : List Value :=
  [c.nodeId, c.hostAddress, c.hostName, c.nodeName, c.clusterName]

end Cluster

end AuditTrail
