import Mathlib.Data.List.Nodup

/-! The credential registry of the worker endpoint: who may present which bearer token.
A registry exists only with the checks of `from_file` passed; only hashes are stored.
-/

namespace Transcriber

-----------------------------------------------------------------------------------------
-- JSON documents
-----------------------------------------------------------------------------------------

/-- A decoded JSON value; an object is its list of pairs, as `object_pairs_hook` gets them. -/
inductive Json
  | null
  | boolean (value : Bool)
  | integer (value : Int)
  | real
  | text (value : String)
  | array (items : List Json)
  | object (pairs : List (String × Json))

mutual

/-- `_unique_object` on every object of a document. -/
def Json.unique : Json → Bool
  | .array items => Json.uniqueItems items
  | .object pairs => decide (pairs.map Prod.fst).Nodup && Json.uniquePairs pairs
  | _ => true

def Json.uniqueItems : List Json → Bool
  | [] => true
  | item :: rest => item.unique && Json.uniqueItems rest

def Json.uniquePairs : List (String × Json) → Bool
  | [] => true
  | (_, value) :: rest => value.unique && Json.uniquePairs rest

end

/-- `document[key]` -/
def Json.field? (pairs : List (String × Json)) (key : String) : Option Json :=
  (pairs.find? (fun pair => pair.1 = key)).map Prod.snd

-----------------------------------------------------------------------------------------
-- Identifiers
-----------------------------------------------------------------------------------------

/-- A character of `[A-Za-z0-9_.:-]`. -/
def isIdCharacter (c : Char) : Bool :=
  c.isAlphanum || c = '_' || c = '.' || c = ':' || c = '-'

/-- `re.fullmatch(r"[A-Za-z0-9_.:-]{1,128}", worker_id)` -/
def isWorkerId (workerId : String) : Bool :=
  1 ≤ workerId.length && workerId.length ≤ 128 && workerId.toList.all isIdCharacter

/-- A character of `[0-9a-f]`. -/
def isHexDigit (c : Char) : Bool := c.isDigit || ('a' ≤ c && c ≤ 'f')

/-- `re.fullmatch("[0-9a-f]{64}", digest)` -/
def isDigest (digest : String) : Bool :=
  digest.length = 64 && digest.toList.all isHexDigit

/-- `str(uuid.UUID(value)) == value`: the canonical text form of a UUID. -/
def isCanonicalUuid (value : String) : Bool :=
  value.length = 36
    && value.toList.zipIdx.all (fun (c, index) =>
      if index = 8 || index = 13 || index = 18 || index = 23 then c = '-' else isHexDigit c)

/-- `text.startswith(prefix)` -/
def hasPrefix (start text : String) : Bool := start.toList.isPrefixOf text.toList

/-- A worker id has no slash. -/
theorem isWorkerId_slash {workerId : String} (valid : isWorkerId workerId)
    : '/' ∉ workerId.toList := by
  intro slash
  simp only [isWorkerId, Bool.and_eq_true, List.all_eq_true] at valid
  exact absurd (valid.2 '/' slash) (by decide)

-----------------------------------------------------------------------------------------
-- The registry
-----------------------------------------------------------------------------------------

/-- `WorkerCredentials._hashes`: the worker ids with the hashes of their tokens. -/
structure WorkerCredentials where
  hashes : List (String × String)
  ids_distinct : (hashes.map Prod.fst).Nodup
  ids_valid : ∀ entry ∈ hashes, isWorkerId entry.1
  digests_valid : ∀ entry ∈ hashes, isDigest entry.2
  digests_distinct : (hashes.map Prod.snd).Nodup

/-- The bytes of a credential file: how many were read, and their JSON value if they are one. -/
structure CredentialFile where
  size : Nat
  document : Option Json

namespace WorkerCredentials

/-- The entries of `document["workers"]` if each value is a string. -/
def texts : List (String × Json) → Option (List (String × String))
  | [] => some []
  | (workerId, .text digest) :: rest => (texts rest).map (fun entries => (workerId, digest) :: entries)
  | _ :: _ => none

/-- The registry over these entries, once they pass the checks. -/
def ofHashes (hashes : List (String × String)) : Option WorkerCredentials :=
  if checks
      : (hashes.map Prod.fst).Nodup
        ∧ (1 ≤ hashes.length ∧ hashes.length ≤ 128)
        ∧ (∀ entry ∈ hashes, isWorkerId entry.1 ∧ isDigest entry.2)
        ∧ (hashes.map Prod.snd).Nodup
    then
    some
      { hashes
        ids_distinct := checks.1
        ids_valid := fun entry member => (checks.2.2.1 entry member).1
        digests_valid := fun entry member => (checks.2.2.1 entry member).2
        digests_distinct := checks.2.2.2 }
  else
    none

/-- `WorkerCredentials.from_file`; every failure is the one error of an invalid registry. An
unreadable file is none.
-/
def fromFile (file : Option CredentialFile) : Option WorkerCredentials := do
  let file ← file
  if 65536 < file.size then
    none
  else
    match ← file.document with
    | .object document =>
        if !(Json.object document).unique
          || !(document.all (fun pair => pair.1 = "version" || pair.1 = "workers")) then
          none
        else
          match Json.field? document "version", Json.field? document "workers" with
          | some (.integer 1), some (.object workers) => ofHashes (← texts workers)
          | _, _ => none
    | _ => none

/-- The token of an authorization header: `Bearer` and 32 to 512 printable characters. -/
def bearerToken (authorization : String) : Option String :=
  if !hasPrefix "Bearer " authorization then
    none
  else
    let token := String.ofList (authorization.toList.drop 7)
    if token.length < 32 || 512 < token.length
      || token.toList.any (fun c => c.toNat < 33 || 126 < c.toNat) then
      none
    else
      some token

/-- `authenticate`: the last entry whose hash is the token's. `sha256` is the hexadecimal digest
of the token's bytes.
-/
def authenticate (credentials : WorkerCredentials) (sha256 : String → String)
    (authorization : String)
    : Option String :=
  (bearerToken authorization).bind (fun token =>
    credentials.hashes.foldl
      (fun identity entry => if sha256 token = entry.2 then some entry.1 else identity) none)

/-- The header carries a token that is registered for the worker. -/
def Registered (credentials : WorkerCredentials) (sha256 : String → String)
    (authorization workerId : String)
    : Prop :=
  ∃ token, bearerToken authorization = some token ∧ (workerId, sha256 token) ∈ credentials.hashes

/-- The loop of `authenticate` ends with an entry that matched, if one did, by list induction. -/
theorem last_match (digest : String) (entries : List (String × String)) (identity : Option String)
    : (∀ entry ∈ entries, digest ≠ entry.2)
        ∧ entries.foldl
            (fun identity entry => if digest = entry.2 then some entry.1 else identity) identity
          = identity
      ∨ ∃ entry ∈ entries,
          digest = entry.2
          ∧ entries.foldl
              (fun identity entry => if digest = entry.2 then some entry.1 else identity) identity
            = some entry.1 := by
  induction entries generalizing identity with
  | nil => exact .inl ⟨by simp, rfl⟩
  | cons head tail ih =>
      rw [List.foldl_cons]
      rcases ih (if digest = head.2 then some head.1 else identity) with ⟨none, same⟩ | found
      · by_cases hit : digest = head.2
        · exact .inr ⟨head, by simp, hit, by rw [same, if_pos hit]⟩
        · refine .inl ⟨?_, by rw [same, if_neg hit]⟩
          simpa [hit] using none
      · obtain ⟨entry, member, hit, same⟩ := found
        exact .inr ⟨entry, List.mem_cons_of_mem _ member, hit, same⟩

/-- Entries of one hash are one entry: the hashes are distinct. -/
theorem entry_unique (credentials : WorkerCredentials) {first second : String} {digest : String}
    (member : (first, digest) ∈ credentials.hashes)
    (member' : (second, digest) ∈ credentials.hashes)
    : first = second := by
  have injective := List.inj_on_of_nodup_map credentials.digests_distinct
  exact congrArg Prod.fst (injective member member' rfl)

/-- A header resolves to a worker exactly when its token is registered for that worker. -/
theorem authenticate_iff (credentials : WorkerCredentials) (sha256 : String → String)
    (authorization workerId : String)
    : credentials.authenticate sha256 authorization = some workerId
      ↔ credentials.Registered sha256 authorization workerId := by
  simp only [authenticate, Registered, Option.bind_eq_some_iff]
  refine exists_congr (fun token => and_congr_right (fun _ => ?_))
  rcases last_match (sha256 token) credentials.hashes none with ⟨missing, same⟩ | found
  · rw [same]
    refine ⟨nofun, fun member => ?_⟩
    exact absurd rfl (missing _ member)
  · obtain ⟨entry, member, hit, same⟩ := found
    have stored : (entry.1, sha256 token) ∈ credentials.hashes := hit ▸ member
    rw [same]
    constructor
    · intro named
      cases named
      exact stored
    · intro member'
      rw [credentials.entry_unique stored member']

/-- No two registered workers are resolved from one header. -/
theorem Registered.unique {credentials : WorkerCredentials} {sha256 : String → String}
    {authorization first second : String}
    (registered : credentials.Registered sha256 authorization first)
    (registered' : credentials.Registered sha256 authorization second)
    : first = second := by
  have resolved := (credentials.authenticate_iff sha256 authorization first).mpr registered
  have resolved' := (credentials.authenticate_iff sha256 authorization second).mpr registered'
  exact Option.some.inj (resolved.symm.trans resolved')

end WorkerCredentials

end Transcriber
