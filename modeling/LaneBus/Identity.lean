import LaneBus.Lane

/-! # Connector identities

A plugin joins the bus under an identity: the bus address it connects to, the
consumer group whose positions it shares, and a client id of its own.  The group
is derived from the plugin's name unless it is given; the client id is the group
and an instance id, which is made up afresh unless it is given.  An option that
is present but empty is a mistake, not an absence.
-/
namespace LaneBus

/-- The bus options of a process. -/
structure BusOptions where
  /-- Address of the bus to connect to. -/
  url : Option String := none
  /-- Consumer group to join instead of the derived one. -/
  group : Option String := none
  /-- Instance id to use instead of a fresh one. -/
  instanceId : Option String := none
  /-- Longest wait of a poll, in milliseconds. -/
  pollTimeout : Nat := 1000
  deriving DecidableEq, Repr

/-- Why a process cannot be configured. -/
inductive ConfigError where
  | missingBusUrl
  | emptyOverride (flag : String)
  | invalidPluginId (id : String)
  | unsupportedBus (url : String)
  deriving DecidableEq, Repr

/-- The text shown for a configuration error. -/
def ConfigError.message : ConfigError → String
  | missingBusUrl => "missing bus address: pass --kafka-url or set F4STEN_KAFKA_URL"
  | emptyOverride flag =>
    flag ++ " was given an empty value; omit the flag to use the derived default"
  | invalidPluginId id => "plugin identifier `" ++ id ++ "` does not yield a consumer group name"
  | unsupportedBus url =>
    "unsupported bus address `" ++ url ++ "`; built-in transports accept memory://<name>"

/-- The connection parameters of one plugin process. -/
structure Identity where
  /-- Bus address to connect to. -/
  url : String
  /-- Consumer group whose positions are shared. -/
  group : String
  /-- Name of this process within the group. -/
  client : String
  deriving DecidableEq, Repr

namespace Identity

/-- The namespace that is left out of group names. -/
def reservedNamespace : String := "eu.f4sten."

/-- The last segment that is left out of group names. -/
def mainSegment : String := ".Main"

/-- A plugin id without the reserved namespace. -/
def unqualified (pluginId : String) : String :=
  (Text.dropFront? reservedNamespace pluginId).getD pluginId

/-- A plugin id without the reserved namespace, and then without a final main
segment. -/
def defaultGroup (pluginId : String) : String :=
  (Text.dropBack? mainSegment (unqualified pluginId)).getD (unqualified pluginId)

/-- The consumer group: the given one verbatim, or the derived one. -/
def resolveGroup (pluginId : String) : Option String → Except ConfigError String
  | some group =>
    if group = "" then .error (.emptyOverride "--kafka-group-id") else .ok group
  | none =>
    if defaultGroup pluginId = "" then .error (.invalidPluginId pluginId)
    else .ok (defaultGroup pluginId)

/-- The instance id: the given one verbatim, or the fresh one. -/
def resolveInstance (fresh : String) : Option String → Except ConfigError String
  | some given => if given = "" then .error (.emptyOverride "--instance-id") else .ok given
  | none => .ok fresh

/-- The bytes of a random identifier carry a mark: the seventh tells its version, and
the ninth its variant. -/
def markByte (n : Nat) : (position : Nat) → Nat
  | 6 => 64 + n % 16
  | 8 => 128 + n % 64
  | _ => n

/-- The instance id that is made up of random bytes: two hexadecimal digits for each. -/
def madeInstance (bytes : List UInt8) : String :=
  String.ofList <| bytes.zipIdx.flatMap fun (b, i) =>
    [Nat.digitChar (markByte b.toNat i / 16), Nat.digitChar (markByte b.toNat i % 16)]

/-- The identity of a plugin under the given options.  The bus address is looked
at first, then the group, then the instance. -/
def resolve (pluginId : String) (options : BusOptions) (fresh : String) :
    Except ConfigError Identity :=
  match options.url with
  | none => .error .missingBusUrl
  | some url =>
    if url = "" then .error .missingBusUrl
    else
      match resolveGroup pluginId options.group with
      | .error e => .error e
      | .ok group =>
        match resolveInstance fresh options.instanceId with
        | .error e => .error e
        | .ok inst =>
          .ok { url, group, client := group ++ Lane.separator.toString ++ inst }

/-- The client id of the consumer of one lane. -/
def laneClient (identity : Identity) (lane : Lane) : String :=
  identity.client ++ Lane.separator.toString ++ lane.name

end Identity

/-- The scheme of buses inside this process. -/
def memoryScheme : String := "memory://"

/-- Checks that a built-in transport serves a bus address. -/
def checkTransport (url : String) : Except ConfigError Unit :=
  if (Text.dropFront? memoryScheme url).isSome then .ok () else .error (.unsupportedBus url)

end LaneBus
