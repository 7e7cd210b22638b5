import Booru.Failure.Kind

/-! What is asked of a server, what it answers, and servers that answer from a script: the answers
of a run are laid down before it starts. -/

namespace Booru

structure Request where
  url : String
  query : List (String × String) := []
  headers : List (String × String) := []
  auth : Option (String × String) := none
  stream : Bool := false
  timeout : Float

namespace Request

def key (r : Request) : String :=
  if r.query.isEmpty then r.url
  else r.url ++ "?" ++ "&".intercalate (r.query.map fun p => p.1 ++ "=" ++ p.2)

end Request

abbrev Chunk := Except Fault ByteArray

structure Response where
  index : Nat
  url : String
  status : Int
  reason : String
  headers : List (String × String)
  body : List Chunk

namespace Response

def header? (r : Response) (name : String) : Option String :=
  (r.headers.reverse.find? fun h => h.1.toLower == name.toLower).map (·.2)

def isClientError (r : Response) : Bool := 400 ≤ r.status && r.status < 500

def isServerError (r : Response) : Bool := 500 ≤ r.status && r.status < 600

def isError (r : Response) : Bool := r.isClientError || r.isServerError

def errorMessage (r : Response) : String :=
  toString r.status ++ (if r.isClientError then " Client Error: " else " Server Error: ") ++
    r.reason
    ++ " for url: " ++ r.url

def content (r : Response) : Except Fault ByteArray :=
  r.body.foldlM (fun done chunk => chunk.map (done ++ ·)) ByteArray.empty

end Response

structure Answer where
  status : Int := 200
  reason : String := ""
  headers : List (String × String) := []
  body : List Chunk := []

abbrev Exchange := Except Fault Answer

/-- Exchanges in the order of the requests, whatever is asked for, or by what is asked for. Where
the script has nothing to say, `otherwise` is what happens. -/
inductive Script
  | inOrder (left : List Exchange) (otherwise : Exchange)
  | byKey (routes : List (String × List Exchange)) (otherwise : Exchange)

namespace Script

def exhausted : Exchange := .error ⟨.assertion, "no response left in the script"⟩

def notFound : Exchange := .ok { status := 404, reason := "Not Found" }

def ofList (exchanges : List Exchange) : Script := .inOrder exchanges exhausted

def ofRoutes (routes : List (String × List Exchange)) : Script := .byKey routes notFound

def unreachable : Script := .inOrder [] (.error ⟨.connection, "no network"⟩)

/-- The exchanges of a key after the first of them happened. The last one happens for ever. -/
def rest : List Exchange → List Exchange
  | _ :: e :: es => e :: es
  | es => es

def next (key : String) : Script → Exchange × Script
  | .inOrder [] otherwise => (otherwise, .inOrder [] otherwise)
  | .inOrder (e :: es) otherwise => (e, .inOrder es otherwise)
  | .byKey routes otherwise =>
    match (routes.lookup key).bind List.head? with
    | none => (otherwise, .byKey routes otherwise)
    | some e =>
      (e, .byKey (routes.map fun r => if r.1 == key then (r.1, rest r.2) else r) otherwise)

def size : Script → Nat
  | .inOrder left _ => left.length
  | .byKey routes _ => (routes.flatMap (·.2)).length

end Script
end Booru
