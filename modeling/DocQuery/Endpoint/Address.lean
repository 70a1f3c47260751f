import DocQuery.Endpoint

/-!
# Addresses — the connection strings of endpoints

A connection string is given as a whole, or is made of credentials, hosts and ports.  What is logged of it has stars in
place of the password.
-/
namespace DocQuery

namespace Settings

def credentials (s : Settings) : String :=
  if s.username = "" then ""
  else s.username ++ (if s.password = "" then "" else ":" ++ s.password) ++ "@"

def address (s : Settings) : String :=
  if s.dsn ≠ "" then s.dsn
  else "mongodb://" ++ s.credentials ++ s.hostname ++ (if s.hostport = "" then "" else ":" ++ s.hostport)

/-- What stands behind the colon for every member of a replica set. -/
def setPort (s : Settings) : String := (Text.splitList s.hostport).headD "27017"

/-- The connection string with all members of a replica set. -/
def seedAddress (s : Settings) : String :=
  "mongodb://" ++ s.credentials ++ Text.join "," (s.hosts.map fun h => h ++ ":" ++ s.setPort) ++ "/"

def target (s : Settings) : Slot → String × Fields
  | .standalone => (s.address, s.params)
  | .replicaSet =>
    (if s.dsn = "" then s.seedAddress else s.dsn, Keyed.set s.params "replicaSet" (.str s.replicaSetName))
  | .host i => ((s.forHost i).address, s.params)

end Settings

namespace Address

/-- The rest of an address behind `user:password@`, with stars for the password; `none` if there is no password. -/
def maskCredentials? (s : List Char) : Option (List Char) :=
  let isPlain (c : Char) : Bool := c != ':' && c != '@' && c != '/'
  let user := s.takeWhile isPlain
  match user, s.dropWhile isPlain with
  | _ :: _, ':' :: r =>
    match r.dropWhile (· != '@') with
    | '@' :: rest => some (user ++ ":***@".toList ++ rest)
    | _ => none
  | _, _ => none

/-- An address with stars for its password: the first that stands behind `://`. -/
def maskList : List Char → List Char
  | [] => []
  | ':' :: '/' :: '/' :: r =>
    match maskCredentials? r with
    | some masked => "://".toList ++ masked
    | none => ':' :: maskList ('/' :: '/' :: r)
  | c :: r => c :: maskList r

def masked (s : String) : String := String.ofList (maskList s.toList)

end Address

end DocQuery
