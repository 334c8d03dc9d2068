import Transcriber.Broker.ConnectionFile

/-! The bundle of `provision_rabbitmq.py`: its accounts, their connection files and what
`BrokerConfig.from_file` makes of each file.
-/

namespace Transcriber

open Json Strings BrokerConfig

namespace Provision

-----------------------------------------------------------------------------------------
-- Writing a bundle
-----------------------------------------------------------------------------------------

/-- The bytes that `secrets.token_urlsafe(48)` draws. -/
abbrev Token := {bytes : List UInt8 // bytes.length = 48}

/-- A directory of the bundle, with the user name and the host in its connection file. -/
structure Account where
  directory : Text
  username : Text
  hostname : Text
  deriving DecidableEq, Repr

/-- A connection file with what it was written from. -/
structure Connection where
  account : Account
  password : Text
  file : List UInt8
  deriving DecidableEq, Repr

/-- What a user may do in the virtual host, as patterns of names. -/
structure Permission where
  user : Text
  vhost : Text
  configure : Text
  write : Text
  read : Text
  deriving DecidableEq, Repr

/-- The accounts of `definitions.json`. -/
structure Definitions where
  users : List Text
  permissions : List Permission
  deriving DecidableEq, Repr

structure Bundle where
  connections : List Connection
  definitions : Definitions
  deriving DecidableEq, Repr

/-- The publisher, which stays on the machine, and a worker's account for each id. -/
def accounts (host : Text) (workers : List Text) : List Account :=
  ⟨text "publisher", text "transcriber-publisher", text "transcriber-rabbitmq"⟩
  :: workers.map (fun worker => ⟨worker, text "worker-" ++ worker, host⟩)

def Account.permission (account : Account) : Permission :=
  if account.directory = text "publisher" then
    ⟨account.username, text "transcriber", text "^transcriber\\.", text "^transcriber\\.",
      text "^transcriber\\."⟩
  else
    ⟨account.username, text "transcriber", text "^$", text "^transcriber\\.defer$",
      text "^transcriber\\.jobs$"⟩

/-- The object of a connection file. -/
def Account.fields (account : Account) (port : Int) (password : Text) : List (Text × Scalar) :=
  [
    (text "host", .str account.hostname),
    (text "port", .int port),
    (text "virtual_host", .str (text "transcriber")),
    (text "username", .str account.username),
    (text "password", .str password),
    (text "tls", .bool true)
  ]

/-- The connection file of an account; a port with too many digits cannot be written. -/
def Account.connect (account : Account) (port : Int) (token : Token) : Option Connection :=
  let password := urlsafeBase64 token.val
  (dumps (account.fields port password)).map (fun written =>
    ⟨account, password, encode (written ++ [10])⟩)

/-- The loop over the accounts; `mkdir` raises where the directory exists. -/
def connectAll (port : Int) (draw : Account → Token)
    : List Text → List Account → Option (List Connection)
  | _, [] => some []
  | existing, account :: rest => do
      if existing.contains account.directory then
        none
      else
        let first ← account.connect port (draw account)
        let others ← connectAll port draw (account.directory :: existing) rest
        return first :: others

/-- The entries of the new directory, and what a path without a name of its own stands for. -/
def reserved : List Text := [text ".", text "..", text "server", text "ca"]

/-- `provision`, where it finishes; each account draws a token. -/
def provision (host : Text) (workers : List Text) (port : Int) (draw : Account → Token)
    : Option Bundle :=
  if !fullmatch isUserChar 1 253 host then
    none
  else if workers = [] || !decide workers.Nodup
      || workers.any (fun worker => !fullmatch isUserChar 1 128 worker) then
    none
  else
    (connectAll port draw reserved (accounts host workers)).map (fun connections =>
      {
        connections
        definitions :=
          {
            users := connections.map (fun connection => connection.account.username)
            permissions := connections.map (fun connection => connection.account.permission)
          }
      })

-----------------------------------------------------------------------------------------
-- One connection file
-----------------------------------------------------------------------------------------

/-- What the connection file of an account is to be read as. -/
def Connection.config (connection : Connection) (port : Int) (caFile : Text) : BrokerConfig where
  host := connection.account.hostname
  port
  virtualHost := text "transcriber"
  username := connection.account.username
  password := connection.password
  tls := true
  caFile
  namespaceName := text "transcriber"

/-- The strings of an account as `provision` makes them: the user name may be too long for
`from_file`.
-/
structure Account.Named (account : Account) : Prop where
  hostname : fullmatch isUserChar 1 253 account.hostname = true
  username_length : 1 ≤ account.username.length ∧ account.username.length ≤ 135
  username_chars : account.username.all isUserChar = true

theorem isUserChar_cases {c : Nat} (user : isUserChar c = true)
    : (48 ≤ c ∧ c ≤ 58) ∨ (65 ≤ c ∧ c ≤ 90) ∨ (97 ≤ c ∧ c ≤ 122) ∨ c = 95 ∨ c = 46 ∨ c = 45 := by
  simp only [isUserChar, isAlphanumeric, Bool.or_eq_true, Bool.and_eq_true, decide_eq_true_eq]
    at user
  omega

theorem plain_of_user {s : Text} (user : s.all isUserChar = true) : Plain s := by
  intro c member
  have char := isUserChar_cases (List.all_eq_true.mp user c member)
  simp only [isPlain, Bool.and_eq_true, decide_eq_true_eq]
  omega

/-- No character of a name separates the parts of a URL. -/
theorem url_of_user {s : Text} (user : s.all isUserChar = true) : s.any isUrlChar = false := by
  rw [List.any_eq_false]
  intro c member
  have char := isUserChar_cases (List.all_eq_true.mp user c member)
  have blank : isWhitespace c = false := by
    rw [isWhitespace, List.contains_eq_mem, decide_eq_false_iff_not]
    simp only [whitespace, List.mem_cons, List.not_mem_nil, or_false]
    omega
  simp only [isUrlChar, blank, Bool.false_or, Bool.or_eq_true, decide_eq_true_eq]
  omega

theorem password_length (token : Token) : (urlsafeBase64 token.val).length = 64 := by
  rw [urlsafeBase64_length, token.property]

theorem password_plain (token : Token) : Plain (urlsafeBase64 token.val) := by
  intro c member
  have safe := urlsafeBase64_safe token.val c member
  simp only [isAlphanumeric, Bool.or_eq_true, Bool.and_eq_true, decide_eq_true_eq] at safe
  simp only [isPlain, Bool.and_eq_true, decide_eq_true_eq]
  omega

theorem password_visible (token : Token)
    : (urlsafeBase64 token.val).all isVisible = true := by
  rw [List.all_eq_true]
  intro c member
  have safe := urlsafeBase64_safe token.val c member
  simp only [isAlphanumeric, Bool.or_eq_true, Bool.and_eq_true, decide_eq_true_eq] at safe
  simp only [isVisible, Bool.and_eq_true, decide_eq_true_eq]
  omega

theorem names_plain (account : Account) (port : Int) (password : Text)
    : ∀ entry ∈ account.fields port password, Plain entry.1 := by
  have names : ∀ name ∈ fieldNames, Plain name := by
    decide +kernel
  intro entry member
  apply names
  simp only [Account.fields, List.mem_cons, List.not_mem_nil, or_false] at member
  rcases member with rfl | rfl | rfl | rfl | rfl | rfl <;> simp [fieldNames]

theorem transcriber_plain : Plain (text "transcriber") := by
  decide +kernel

theorem values_plain {account : Account} (named : account.Named) (port : Int) (token : Token)
    : ∀ entry ∈ account.fields port (urlsafeBase64 token.val), entry.2.Plain := by
  have hostname : account.hostname.all isUserChar = true := by
    have matched := named.hostname
    simp only [fullmatch, Bool.and_eq_true] at matched
    exact matched.2
  intro entry member
  simp only [Account.fields, List.mem_cons, List.not_mem_nil, or_false] at member
  rcases member with rfl | rfl | rfl | rfl | rfl | rfl
  · exact plain_of_user hostname
  · trivial
  · exact transcriber_plain
  · exact plain_of_user named.username_chars
  · exact password_plain token
  · trivial

theorem transcriber_length : (text "transcriber").length = 11 := by
  decide +kernel

theorem true_length : (text "true").length = 4 := by
  decide +kernel

theorem keys_short : ∀ name ∈ fieldNames, (dumpsString name).length ≤ 14 := by
  decide +kernel

/-- A connection file stays below the limit of `from_file`, whatever its port. -/
theorem file_length {account : Account} {port : Int} {token : Token} {written : Text}
    (named : account.Named)
    (wrote : dumps (account.fields port (urlsafeBase64 token.val)) = some written)
    : written.length ≤ 8000 := by
  have plain := values_plain named port token
  have hostname := dumpsString_length (plain (text "host", .str account.hostname)
    (by simp [Account.fields]))
  have username := dumpsString_length (plain (text "username", .str account.username)
    (by simp [Account.fields]))
  have password := dumpsString_length (password_plain token)
  have vhost := dumpsString_length transcriber_plain
  rw [password_length] at password
  rw [transcriber_length] at vhost
  have short := named.hostname
  simp only [fullmatch, Bool.and_eq_true, decide_eq_true_eq] at short
  have bound := named.username_length
  cases digits : dumpsInt port with
  | none =>
      simp [dumps, Account.fields, dumpsMembers, dumpsMember, Scalar.dumps, digits] at wrote
  | some number =>
      have few := dumpsInt_length digits
      rw [maxDigits] at few
      simp only [dumps, Account.fields, dumpsMembers, dumpsMember, Scalar.dumps, digits,
        Option.map_some, Option.bind_eq_bind, Option.bind_some, Option.pure_def,
        Option.some.injEq] at wrote
      have hostKey := keys_short (text "host") (by simp [fieldNames])
      have portKey := keys_short (text "port") (by simp [fieldNames])
      have virtualKey := keys_short (text "virtual_host") (by simp [fieldNames])
      have userKey := keys_short (text "username") (by simp [fieldNames])
      have passwordKey := keys_short (text "password") (by simp [fieldNames])
      have tlsKey := keys_short (text "tls") (by simp [fieldNames])
      rw [← wrote]
      simp [true_length]
      omega

/-- The checks of `from_file` on what a connection file holds: only the port and the length of
the user name can fail.
-/
theorem isValid_config {account : Account} {connection : Connection} {token : Token}
    (named : account.Named) (same : connection.account = account)
    (drawn : connection.password = urlsafeBase64 token.val) (port : Int) (caFile : Text)
    : (connection.config port caFile).isValid = true
      ↔ (1 ≤ port ∧ port ≤ 65535) ∧ account.username.length ≤ 128 := by
  have vhost : fullmatch isVirtualHostChar 1 128 (text "transcriber") = true := by
    decide +kernel
  have queues : fullmatch isNamespaceChar 1 100 (text "transcriber") = true := by
    decide +kernel
  have hostname := named.hostname
  simp only [fullmatch, Bool.and_eq_true, decide_eq_true_eq] at hostname
  have some : account.hostname ≠ [] := by
    intro none
    simp [none] at hostname
  have length := password_length token
  have visible := password_visible token
  have user : fullmatch isUserChar 1 128 account.username = true
      ↔ account.username.length ≤ 128 := by
    simp [fullmatch, named.username_chars, named.username_length.1]
  simp only [isValid, Connection.config, same, drawn, vhost, queues, visible, length, some,
    url_of_user hostname.2, user, Bool.and_eq_true, decide_eq_true_eq, Bool.not_false, ne_eq,
    not_false_eq_true, decide_true, and_true, true_and, Nat.reduceLeDiff]

/-- `from_file` reads the file as it was meant exactly where the port is one and the user name
is not too long.
-/
theorem fromFile_connect {account : Account} {port : Int} {token : Token}
    {connection : Connection} (named : account.Named)
    (connected : account.connect port token = some connection)
    (loopback : Text → Option Bool) (caFile : Text)
    : connection.account = account
      ∧ fromFile loopback connection.file caFile
        = if (1 ≤ port ∧ port ≤ 65535) ∧ account.username.length ≤ 128 then
            .ok (connection.config port caFile)
          else
            .error .valueError := by
  obtain ⟨written, wrote, rfl⟩ := Option.map_eq_some_iff.mp connected
  refine ⟨rfl, ?_⟩
  have short : ¬8192 < (encode (written ++ [10])).length := by
    have length := file_length named wrote
    rw [encode, List.length_map, List.length_append, List.length_singleton]
    omega
  have loaded :=
    loads_dumps (Wire.recursionLimit - 1) (names_plain account port _)
      (values_plain named port token)
      (List.cons_ne_nil _ _) wrote (show skip [10] = [] from rfl) (by simp [Ascii])
  rw [Nat.sub_add_cancel (by decide : 1 ≤ Wire.recursionLimit)] at loaded
  let connection : Connection :=
    ⟨account, urlsafeBase64 token.val, encode (written ++ [10])⟩
  have fields
      : ofValue
          (.dict ((account.fields port (urlsafeBase64 token.val)).map
            (fun entry => (entry.1, entry.2.value))))
          caFile
        = some (connection.config port caFile) :=
    ofValue_fields account.hostname (text "transcriber") account.username
      (urlsafeBase64 token.val) caFile port true
  have secure : (connection.config port caFile).isSecure loopback = true := rfl
  have valid := isValid_config named (rfl : connection.account = account) rfl port caFile
  rw [fromFile, if_neg short, Wire.load_iff.mpr loaded]
  simp only [fields, secure, Bool.and_true]
  by_cases accepted : (1 ≤ port ∧ port ≤ 65535) ∧ account.username.length ≤ 128
  · rw [if_pos (valid.mpr accepted), if_pos accepted]
  · rw [if_neg (valid.not.mpr accepted), if_neg accepted]

-----------------------------------------------------------------------------------------
-- The whole bundle
-----------------------------------------------------------------------------------------

variable {host : Text} {workers : List Text} {port : Int} {draw : Account → Token}

/-- What `provision` checks of its arguments. -/
structure Admissible (host : Text) (workers : List Text) : Prop where
  host : fullmatch isUserChar 1 253 host = true
  workers_ne_nil : workers ≠ []
  workers_nodup : workers.Nodup
  worker : ∀ worker ∈ workers, fullmatch isUserChar 1 128 worker = true

theorem provision_admissible {bundle : Bundle}
    (done : provision host workers port draw = some bundle)
    : Admissible host workers
      ∧ connectAll port draw reserved (accounts host workers) = some bundle.connections
      ∧ bundle.definitions.users
        = bundle.connections.map (fun connection => connection.account.username)
      ∧ bundle.definitions.permissions
        = bundle.connections.map (fun connection => connection.account.permission) := by
  unfold provision at done
  split at done
  · cases done
  · rename_i name
    split at done
    · cases done
    · rename_i distinct
      simp only [Bool.or_eq_true, decide_eq_true_eq, Bool.not_eq_true', decide_eq_false_iff_not,
        not_or, not_not, List.any_eq_true, not_exists, not_and, Bool.not_eq_false] at distinct
      obtain ⟨connections, connected, rfl⟩ := Option.map_eq_some_iff.mp done
      exact ⟨⟨by simpa using name, distinct.1.1, distinct.1.2, distinct.2⟩, connected, rfl, rfl⟩

theorem publisher_named : Account.Named
    ⟨text "publisher", text "transcriber-publisher", text "transcriber-rabbitmq"⟩ := by
  constructor
  · decide +kernel
  · decide +kernel
  · decide +kernel

theorem Admissible.worker_named {worker : Text} (admissible : Admissible host workers)
    (member : worker ∈ workers)
    : Account.Named ⟨worker, text "worker-" ++ worker, host⟩ := by
  have matched := admissible.worker worker member
  simp only [fullmatch, Bool.and_eq_true, decide_eq_true_eq] at matched
  have seven : (text "worker-").length = 7 := by decide +kernel
  have chars : (text "worker-").all isUserChar = true := by decide +kernel
  constructor
  · exact admissible.host
  · rw [List.length_append, seven]
    omega
  · rw [List.all_append, chars, matched.2, Bool.and_self]

theorem Admissible.named {account : Account} (admissible : Admissible host workers)
    (member : account ∈ accounts host workers)
    : account.Named := by
  rcases List.mem_cons.mp member with rfl | listed
  · exact publisher_named
  · obtain ⟨worker, known, rfl⟩ := List.mem_map.mp listed
    exact admissible.worker_named known

/-- The loop writes one file for each account, by induction on them. -/
theorem connectAll_connected {existing : List Text} {remaining : List Account}
    {connections : List Connection}
    (done : connectAll port draw existing remaining = some connections)
    : List.Forall₂ (fun account connection => account.connect port (draw account) = some connection)
        remaining connections := by
  induction remaining generalizing existing connections with
  | nil =>
      cases done
      exact .nil
  | cons account rest ih =>
      unfold connectAll at done
      split at done
      · cases done
      · simp only [Option.bind_eq_bind, Option.bind_eq_some_iff] at done
        obtain ⟨first, connected, others, later, same⟩ := done
        cases same
        exact .cons connected (ih later)

/-- User names tell the accounts apart. -/
theorem Admissible.usernames_nodup (admissible : Admissible host workers)
    : ((accounts host workers).map Account.username).Nodup := by
  have publisher : (text "transcriber-publisher").head? = some 116 := by decide +kernel
  have worker : (text "worker-").head? = some 119 := by decide +kernel
  rw [accounts, List.map_cons, List.map_map, List.nodup_cons]
  constructor
  · intro listed
    obtain ⟨id, _, same⟩ := List.mem_map.mp listed
    have first := congrArg List.head? same
    simp only [Function.comp_apply, List.head?_append, worker, publisher] at first
    cases first
  · refine admissible.workers_nodup.map ?_
    intro id other same
    exact List.append_cancel_left same

/-- The claim: every account has its file, which is read back as it was meant, and the user names
are distinct and those of `definitions.json`.
-/
structure Usable (loopback : Text → Option Bool) (caFile host : Text) (workers : List Text)
    (port : Int) (draw : Account → Token) (bundle : Bundle) : Prop where
  written : bundle.connections.map Connection.account = accounts host workers
  drawn : ∀ connection ∈ bundle.connections,
    connection.password = urlsafeBase64 (draw connection.account).val
  accepted : ∀ connection ∈ bundle.connections,
    fromFile loopback connection.file caFile = .ok (connection.config port caFile)
  distinct : (bundle.connections.map (fun connection => connection.account.username)).Nodup
  users :
    bundle.definitions.users
    = bundle.connections.map (fun connection => connection.account.username)
  permissions : bundle.definitions.permissions.map Permission.user = bundle.definitions.users

/-- The port is one, and the user name of every account is short enough for `from_file`. -/
def Fits (port : Int) (remaining : List Account) : Prop :=
  ∀ account ∈ remaining, (1 ≤ port ∧ port ≤ 65535) ∧ account.username.length ≤ 128

/-- The files are read back exactly where the accounts fit, by induction on them. -/
theorem accepted_iff {remaining : List Account} {connections : List Connection}
    (named : ∀ account ∈ remaining, account.Named)
    (connected : List.Forall₂
      (fun account connection => account.connect port (draw account) = some connection)
      remaining connections)
    (loopback : Text → Option Bool) (caFile : Text)
    : (∀ connection ∈ connections,
        fromFile loopback connection.file caFile = .ok (connection.config port caFile))
      ↔ Fits port remaining := by
  induction connected with
  | nil => simp [Fits]
  | @cons account connection rest others first later ih =>
      have read := (fromFile_connect (named account List.mem_cons_self) first loopback caFile).2
      have left := ih (fun other member => named other (List.mem_cons_of_mem _ member))
      unfold Fits at left ⊢
      rw [List.forall_mem_cons, List.forall_mem_cons, left, read]
      by_cases fits : (1 ≤ port ∧ port ≤ 65535) ∧ account.username.length ≤ 128
      · simp [fits]
      · rw [if_neg fits]
        simp [fits]

theorem connected_accounts {remaining : List Account} {connections : List Connection}
    (connected : List.Forall₂
      (fun account connection => account.connect port (draw account) = some connection)
      remaining connections)
    : connections.map Connection.account = remaining
      ∧ ∀ connection ∈ connections,
          connection.password = urlsafeBase64 (draw connection.account).val := by
  induction connected with
  | nil => simp
  | @cons account connection rest others first later ih =>
      obtain ⟨written, _, rfl⟩ := Option.map_eq_some_iff.mp first
      exact ⟨by rw [List.map_cons, ih.1], List.forall_mem_cons.mpr ⟨rfl, ih.2⟩⟩

theorem permission_user (account : Account) : account.permission.user = account.username := by
  unfold Account.permission
  split <;> rfl

/-- The accounts fit where the port and the ids of the workers do. -/
theorem fits_iff : Fits port (accounts host workers)
    ↔ (1 ≤ port ∧ port ≤ 65535) ∧ ∀ worker ∈ workers, worker.length ≤ 121 := by
  have seven : (text "worker-").length = 7 := by decide +kernel
  have publisher : (text "transcriber-publisher").length ≤ 128 := by decide +kernel
  unfold Fits accounts
  rw [List.forall_mem_cons, List.forall_mem_map]
  simp only [List.length_append, seven, publisher, and_true]
  constructor
  · intro fits
    refine ⟨fits.1, ?_⟩
    intro worker member
    have short := (fits.2 worker member).2
    omega
  · intro fits
    refine ⟨fits.1, ?_⟩
    intro worker member
    have short := fits.2 worker member
    exact ⟨fits.1, by omega⟩

-----------------------------------------------------------------------------------------
-- Bundles that are written
-----------------------------------------------------------------------------------------

theorem connect_isSome {digits : Text} (writable : dumpsInt port = some digits)
    (account : Account) (token : Token)
    : ∃ connection, account.connect port token = some connection := by
  simp [Account.connect, dumps, Account.fields, dumpsMembers, dumpsMember, Scalar.dumps, writable]

/-- The loop ends where no directory exists twice, by induction on the accounts. -/
theorem connectAll_isSome {digits : Text} (writable : dumpsInt port = some digits)
    (draw : Account → Token) {existing : List Text} {remaining : List Account}
    (fresh : ∀ account ∈ remaining, account.directory ∉ existing)
    (distinct : (remaining.map Account.directory).Nodup)
    : ∃ connections, connectAll port draw existing remaining = some connections := by
  induction remaining generalizing existing with
  | nil => exact ⟨[], rfl⟩
  | cons account rest ih =>
      rw [List.map_cons, List.nodup_cons] at distinct
      have absent : existing.contains account.directory = false := by
        rw [List.contains_eq_mem, decide_eq_false_iff_not]
        exact fresh account List.mem_cons_self
      have later : ∀ other ∈ rest, other.directory ∉ account.directory :: existing := by
        intro other member listed
        rcases List.mem_cons.mp listed with same | before
        · exact distinct.1 (List.mem_map.mpr ⟨other, member, same⟩)
        · exact fresh other (List.mem_cons_of_mem _ member) before
      obtain ⟨first, connected⟩ := connect_isSome writable account (draw account)
      obtain ⟨others, done⟩ := ih later distinct.2
      refine ⟨first :: others, ?_⟩
      rw [connectAll, absent, connected, done]
      rfl

/-- `provision` finishes for admissible arguments that name no other directory of the bundle. -/
theorem provision_isSome (admissible : Admissible host workers) {digits : Text}
    (writable : dumpsInt port = some digits)
    (free : ∀ worker ∈ workers, worker ∉ text "publisher" :: reserved)
    (draw : Account → Token)
    : ∃ bundle, provision host workers port draw = some bundle := by
  have publisher : text "publisher" ∉ reserved := by decide +kernel
  have directories : (accounts host workers).map Account.directory
      = text "publisher" :: workers := by
    rw [accounts, List.map_cons, List.map_map]
    exact congrArg _ (List.map_id workers)
  have fresh : ∀ account ∈ accounts host workers, account.directory ∉ reserved := by
    intro account member listed
    have directory := List.mem_map_of_mem (f := Account.directory) member
    rw [directories] at directory
    rcases List.mem_cons.mp directory with same | worker
    · exact publisher (same ▸ listed)
    · exact free _ worker (List.mem_cons_of_mem _ listed)
  have distinct : ((accounts host workers).map Account.directory).Nodup := by
    rw [directories, List.nodup_cons]
    exact ⟨fun member => free _ member List.mem_cons_self, admissible.workers_nodup⟩
  obtain ⟨connections, done⟩ := connectAll_isSome writable draw fresh distinct
  have names : ¬workers.any (fun worker => !fullmatch isUserChar 1 128 worker) = true := by
    rw [List.any_eq_true]
    intro wrong
    obtain ⟨worker, member, refused⟩ := wrong
    rw [admissible.worker worker member] at refused
    cases refused
  unfold provision
  simp [admissible.host, admissible.workers_ne_nil, admissible.workers_nodup, names, done]

-----------------------------------------------------------------------------------------
-- Which bundles are usable
-----------------------------------------------------------------------------------------

/-- All files of a bundle are read back exactly where its accounts fit. -/
theorem bundle_accepted_iff {bundle : Bundle}
    (done : provision host workers port draw = some bundle)
    (loopback : Text → Option Bool) (caFile : Text)
    : (∀ connection ∈ bundle.connections,
        fromFile loopback connection.file caFile = .ok (connection.config port caFile))
      ↔ (1 ≤ port ∧ port ≤ 65535) ∧ ∀ worker ∈ workers, worker.length ≤ 121 := by
  obtain ⟨admissible, connected, _⟩ := provision_admissible done
  have files := connectAll_connected connected
  exact (accepted_iff (fun _ => admissible.named) files loopback caFile).trans fits_iff

/-- A bundle is usable exactly where the port is a port and no worker id has more than 121
characters.
-/
theorem provision_usable_iff (loopback : Text → Option Bool) (caFile host : Text)
    (workers : List Text) (port : Int) (draw : Account → Token) (bundle : Bundle)
    (done : provision host workers port draw = some bundle)
    : Usable loopback caFile host workers port draw bundle
      ↔ (1 ≤ port ∧ port ≤ 65535) ∧ ∀ worker ∈ workers, worker.length ≤ 121 := by
  obtain ⟨admissible, connected, users, permissions⟩ := provision_admissible done
  obtain ⟨written, drawn⟩ := connected_accounts (connectAll_connected connected)
  rw [← bundle_accepted_iff done loopback caFile]
  constructor
  · exact Usable.accepted
  · intro accepted
    refine ⟨written, drawn, accepted, ?_, users, ?_⟩
    · have distinct := admissible.usernames_nodup
      rw [← written, List.map_map] at distinct
      exact distinct
    · rw [users, permissions, List.map_map]
      apply List.map_congr_left
      intro connection _
      exact permission_user connection.account

/-- Tokens of zeros. -/
def zeros (_ : Account) : Token := ⟨List.replicate 48 0, List.length_replicate⟩

/-- The loopback addresses of the two families, in their usual form. -/
def usualLoopback (host : Text) : Option Bool :=
  if host = text "127.0.0.1" || host = text "::1" then some true else none

theorem writable_port : dumpsInt 5671 = some [53, 54, 55, 49] := by
  simp [dumpsInt, decimal, maxDigits]

/-- A bundle for one machine. -/
theorem provision_usable_sample
    : ∃ bundle,
        provision (text "broker.example") [text "gpu"] 5671 zeros = some bundle
        ∧ Usable usualLoopback (text "ca.crt") (text "broker.example") [text "gpu"] 5671 zeros
            bundle := by
  have admissible : Admissible (text "broker.example") [text "gpu"] := by
    constructor <;> decide +kernel
  obtain ⟨bundle, done⟩ := provision_isSome admissible writable_port (by decide +kernel) zeros
  refine ⟨bundle, done, ?_⟩
  exact (provision_usable_iff usualLoopback (text "ca.crt") (text "broker.example") [text "gpu"]
    5671 zeros bundle done).mpr ⟨by decide, by decide +kernel⟩

theorem writable_zero : dumpsInt 0 = some [48] := by
  simp [dumpsInt, decimal, maxDigits]

/-- `provision` admits a worker id whose user name `from_file` refuses, and a port that is none.
-/
theorem provision_unusable
    : (∃ bundle,
        provision (text "broker.example") [List.replicate 122 97] 5671 zeros = some bundle
        ∧ ¬Usable usualLoopback (text "ca.crt") (text "broker.example") [List.replicate 122 97]
            5671 zeros bundle)
      ∧ ∃ bundle,
          provision (text "broker.example") [text "gpu"] 0 zeros = some bundle
          ∧ ¬Usable usualLoopback (text "ca.crt") (text "broker.example") [text "gpu"] 0 zeros
              bundle := by
  constructor
  · have admissible : Admissible (text "broker.example") [List.replicate 122 97] := by
      constructor <;> decide +kernel
    obtain ⟨bundle, done⟩ := provision_isSome admissible writable_port (by decide +kernel) zeros
    refine ⟨bundle, done, ?_⟩
    intro usable
    obtain ⟨_, short⟩ := (bundle_accepted_iff done _ _).mp usable.accepted
    have length := short _ (List.mem_singleton_self _)
    rw [List.length_replicate] at length
    omega
  · have admissible : Admissible (text "broker.example") [text "gpu"] := by
      constructor <;> decide +kernel
    obtain ⟨bundle, done⟩ := provision_isSome admissible writable_zero (by decide +kernel) zeros
    refine ⟨bundle, done, ?_⟩
    intro usable
    obtain ⟨range, _⟩ := (bundle_accepted_iff done _ _).mp usable.accepted
    omega

end Provision

end Transcriber
