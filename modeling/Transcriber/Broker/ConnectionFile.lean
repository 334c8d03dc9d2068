import Transcriber.Broker.Envelope

/-! The connection files of RabbitMQ clients, as `BrokerConfig.from_file` reads them. -/

namespace Transcriber

open Json Strings Wire

structure BrokerConfig where
  host : Text
  port : Int
  virtualHost : Text
  username : Text
  password : Text
  tls : Bool
  caFile : Text
  namespaceName : Text
  deriving DecidableEq, Repr

namespace BrokerConfig

/-- `[A-Za-z0-9_.:-]` -/
def isUserChar (c : Nat) : Bool := isAlphanumeric c || c = 95 || c = 46 || c = 58 || c = 45

/-- `[A-Za-z0-9_.-]` -/
def isNamespaceChar (c : Nat) : Bool := isAlphanumeric c || c = 95 || c = 46 || c = 45

/-- The same with a slash. -/
def isVirtualHostChar (c : Nat) : Bool := isNamespaceChar c || c = 47

/-- A blank or a character that separates the parts of a URL. -/
def isUrlChar (c : Nat) : Bool := isWhitespace c || c = 47 || c = 64 || c = 63 || c = 35

/-- A visible character of ASCII. -/
def isVisible (c : Nat) : Bool := 33 ≤ c && c ≤ 126

/-- The checks of `from_file` on fields of the right types. -/
def isValid (config : BrokerConfig) : Bool :=
  config.host ≠ []
  && !config.host.any isUrlChar
  && (1 ≤ config.port && config.port ≤ 65535)
  && fullmatch isUserChar 1 128 config.username
  && fullmatch isVirtualHostChar 1 128 config.virtualHost
  && fullmatch isNamespaceChar 1 100 config.namespaceName
  && (32 ≤ config.password.length && config.password.length ≤ 512)
  && config.password.all isVisible

/-- Without TLS only this machine is a host; `loopback` is `ip_address(host).is_loopback`, where
that raises no ValueError.
-/
def isSecure (loopback : Text → Option Bool) (config : BrokerConfig) : Bool :=
  config.tls || config.host = text "localhost" || loopback config.host = some true

/-- The names of the fields but for `ca_file`, which `from_file` gives itself. -/
def fieldNames : List Text :=
  [text "host", text "port", text "virtual_host", text "username", text "password", text "tls",
    text "namespace"]

/-- `cls(**value, ca_file=ca_file)` with the checks of types; other keys, missing fields and
fields of another type all end in a TypeError or a ValueError.
-/
def ofValue (value : Value) (caFile : Text) : Option BrokerConfig :=
  match value with
  | .dict members =>
      if members.all (fun entry => fieldNames.contains entry.1) then
        match lookup members (text "host"), lookup members (text "port"),
          lookup members (text "virtual_host"), lookup members (text "username"),
          lookup members (text "password"),
          (lookup members (text "tls")).getD (.bool true),
          (lookup members (text "namespace")).getD (.str (text "transcriber")) with
        | some (.str host), some (.int port), some (.str virtualHost), some (.str username),
          some (.str password), .bool tls, .str namespaceName =>
            some ⟨host, port, virtualHost, username, password, tls, caFile, namespaceName⟩
        | _, _, _, _, _, _, _ => none
      else
        none
  | _ => none

/-- `from_file` with the bytes that it has read: its exceptions are ValueError, and
RecursionError where the JSON nests too deep.
-/
def fromFile (loopback : Text → Option Bool) (raw : List UInt8) (caFile : Text)
    : Except Raised BrokerConfig :=
  if 8192 < raw.length then
    .error .valueError
  else
    match load recursionLimit raw with
    | .error raised => .error raised
    | .ok value =>
        match ofValue value caFile with
        | none => .error .valueError
        | some config =>
            if config.isValid && config.isSecure loopback then .ok config else .error .valueError

theorem fieldNames_spelled
    : text "host" = [104, 111, 115, 116]
      ∧ text "port" = [112, 111, 114, 116]
      ∧ text "virtual_host" = [118, 105, 114, 116, 117, 97, 108, 95, 104, 111, 115, 116]
      ∧ text "username" = [117, 115, 101, 114, 110, 97, 109, 101]
      ∧ text "password" = [112, 97, 115, 115, 119, 111, 114, 100]
      ∧ text "tls" = [116, 108, 115]
      ∧ text "namespace" = [110, 97, 109, 101, 115, 112, 97, 99, 101] := by
  decide +kernel

/-- An object of the fields without a namespace. -/
theorem ofValue_fields (host virtualHost username password caFile : Text) (port : Int)
    (tls : Bool)
    : ofValue
        (.dict
          [
            (text "host", .str host),
            (text "port", .int port),
            (text "virtual_host", .str virtualHost),
            (text "username", .str username),
            (text "password", .str password),
            (text "tls", .bool tls)
          ])
        caFile
      = some
          ⟨host, port, virtualHost, username, password, tls, caFile, text "transcriber"⟩ := by
  obtain ⟨host', port', virtual', username', password', tls', space'⟩ := fieldNames_spelled
  simp [ofValue, lookup, fieldNames, host', port', virtual', username', password', tls',
    space']

end BrokerConfig

end Transcriber
