import SockShop.Lib.Traced

/-!
# The outbound TLS client

`additions/outbound-tls-golang/main.go`: an endless loop whose iteration sends four requests one after another, reads the body of each
response, prints the response and closes the body, and pauses at its end. An error of `http.NewRequest`, of `client.Do` or of
`io.ReadAll` is printed and ends the iteration with `continue`, except the last error of the last request.

What the calls return is given for each request (`Exchange`); what an iteration does is the trace of its events. The response bodies
are named by the iteration and the number of the request in it.
-/

namespace SockShop.OutboundTls

/-- A request, with its headers in the order they are set. -/
structure Request where
  method : String
  url : String
  headers : List (String × String)
  body : Option String
  deriving DecidableEq, Repr

/-- What the calls for one request return: an error, or what they return without one. A response is given as it is printed. -/
structure Exchange where
  newRequest : Except String Unit
  response : Except String String
  readAll : Except String Unit

/-- What the calls of one iteration return. -/
structure Outcomes where
  notFound : Exchange
  createUser : Exchange
  getUsers : Exchange
  getPosts : Exchange

/-- The body of response `k` in iteration `j`. -/
structure Body where
  j : Nat
  k : Nat
  deriving DecidableEq, Repr

/-- What an iteration does: a line printed, a request sent, a response body obtained or closed, or a pause in seconds. -/
inductive Event where
  | println (line : String)
  | sent (request : Request)
  | opened (body : Body)
  | closed (body : Body)
  | sleep (seconds : Nat)
  deriving DecidableEq, Repr

/-- A piece of an iteration. It may stop early, with `continue`. -/
abbrev Iteration := Traced Event Unit

open Traced

/-! ## The requests -/

def accessToken : String := "0558fc2e748cc7427ab6f4b16e5ca0c469eccd32cc5c7d1d1a83614f94e5f186"

/-- The headers that every request has. -/
def commonHeaders : List (String × String) := [("cache-control", "no-cache"), ("x-powered-by", "golang")]

/-- A request for what is at `url`. -/
def get (url : String) : Request := ⟨"GET", url, commonHeaders, none⟩

/-- The form with the data of the user. -/
def payload (j : Nat) : String :=
  "------WebKitFormBoundary7MA4YWxkTrZu0gW\r\nContent-Disposition: form-data; name=\"email\"\r\n\r\njohn.doe." ++ toString j ++
  "@example.com\r\n------WebKitFormBoundary7MA4YWxkTrZu0gW\r\nContent-Disposition: form-data; name=\"name\"\r\n\r\nJohn\r\n" ++
  "------WebKitFormBoundary7MA4YWxkTrZu0gW\r\nContent-Disposition: form-data; name=\"gender\"\r\n\r\nmale\r\n" ++
  "------WebKitFormBoundary7MA4YWxkTrZu0gW\r\nContent-Disposition: form-data; name=\"status\"\r\n\r\nactive\r\n" ++
  "------WebKitFormBoundary7MA4YWxkTrZu0gW--"

def notFoundRequest (j : Nat) : Request := get ("https://gorest.co.in/public/v2/not-found?index=" ++ toString j)

def createUserRequest (j : Nat) : Request where
  method := "POST"
  url := "https://gorest.co.in/public/v2/users"
  headers :=
    [("content-type", "multipart/form-data; boundary=----WebKitFormBoundary7MA4YWxkTrZu0gW"),
      ("authorization", "Bearer " ++ accessToken)] ++ commonHeaders
  body := some (payload j)

def getUsersRequest (j : Nat) : Request := get ("https://gorest.co.in/public/v2/users?index=" ++ toString j)

def getPostsRequest (j : Nat) : Request := get ("https://gorest.co.in/public/v2/posts?index=" ++ toString j)

/-! ## The iteration -/

/-- The test of an error, which is printed and ends the iteration. -/
def orContinue {α : Type} (r : Except String α) : Iteration α :=
  match r with
  | .ok a => pure a
  | .error err => do
    emit (.println err)
    stop ()

/-- A request, up to its response. -/
def send (body : Body) (request : Request) (o : Exchange) : Iteration String := do
  orContinue o.newRequest
  emit (.sent request)
  let res ← orContinue o.response
  emit (.opened body)
  return res

/-- Each of the first three requests. -/
def exchange (body : Body) (request : Request) (o : Exchange) : Iteration Unit := do
  let res ← send body request o
  orContinue o.readAll
  emit (.println ("res: " ++ res))
  emit (.closed body)

/-- The last request: an error in reading the body does not end the iteration. -/
def lastExchange (body : Body) (request : Request) (o : Exchange) : Iteration Unit := do
  let res ← send body request o
  match o.readAll with
  | .ok _ => pure ()
  | .error err => emit (.println err)
  emit (.println ("res: " ++ res))
  emit (.closed body)

/-- Iteration number `j`. -/
def iteration (j : Nat) (o : Outcomes) : Iteration Unit := do
  exchange ⟨j, 1⟩ (notFoundRequest j) o.notFound
  exchange ⟨j, 2⟩ (createUserRequest j) o.createUser
  exchange ⟨j, 3⟩ (getUsersRequest j) o.getUsers
  lastExchange ⟨j, 4⟩ (getPostsRequest j) o.getPosts
  emit (.sleep 3)

/-- The loop of `main` from the state `j` of its counter on: what each of its next iterations does. The counter is an `int` of 64 bits,
which no run is long enough to wrap. -/
def loop (j : Nat) : List Outcomes → List (List Event)
  | [] => []
  | o :: outs => (iteration (j + 1) o).events :: loop (j + 1) outs

/-- `main`, for a number of iterations. -/
def main (outs : List Outcomes) : List (List Event) := loop 0 outs

/-! ## Ending cleanly -/

/-- The body that an event obtains. -/
def Event.obtains : Event → Option Body
  | .opened body => some body
  | _ => none

/-- The body that an event closes. -/
def Event.closes : Event → Option Body
  | .closed body => some body
  | _ => none

/-- The state at the start of an iteration, after the iterations given: every body obtained has been closed, and every iteration has
paused. -/
def Clean (iterations : List (List Event)) : Prop :=
  Released Event.obtains Event.closes iterations.flatten ∧ ∀ events ∈ iterations, Event.sleep 3 ∈ events

/-- Every iteration of a run ends cleanly. -/
def EndsCleanly (outs : List Outcomes) : Prop := ∀ before, before <+: outs → Clean (main before)

/-- The request is built and answered. -/
def Exchange.Answered (o : Exchange) : Prop := o.newRequest.toBool ∧ o.response.toBool

/-- The outcomes with which no iteration is left early. -/
def Outcomes.Complete (o : Outcomes) : Prop :=
  (∀ x ∈ [o.notFound, o.createUser, o.getUsers], x.Answered ∧ x.readAll.toBool) ∧ o.getPosts.Answered

/-! ## What is sent and what stays open -/

/-- The request that an event sends. -/
def Event.sends : Event → Option Request
  | .sent request => some request
  | _ => none

/-- The requests of iteration `j`. -/
def requests (j : Nat) : List Request := [notFoundRequest j, createUserRequest j, getUsersRequest j, getPostsRequest j]

/-- The exchange goes on to the next one. -/
def Exchange.goesOn (o : Exchange) : Bool := o.newRequest.toBool && o.response.toBool && o.readAll.toBool

/-- How many requests are sent of those with these exchanges: up to the first one that does not go on, and that one if it is built. -/
def sentCount : List Exchange → Nat
  | [] => 0
  | o :: os => if o.goesOn then sentCount os + 1 else if o.newRequest.toBool then 1 else 0

/-- The number of the request whose response is answered and not read, and so left open; the requests are counted from `k` on. -/
def leftOpen (k : Nat) : List Exchange → Option Nat
  | [] => none
  | o :: os => if o.goesOn then leftOpen (k + 1) os else if o.newRequest.toBool && o.response.toBool then some k else none

/-- How many requests an iteration sends. -/
def Outcomes.sentCount (o : Outcomes) : Nat := OutboundTls.sentCount [o.notFound, o.createUser, o.getUsers, o.getPosts]

/-- The number of the request whose response an iteration leaves open: one of the first three. -/
def Outcomes.leftOpen (o : Outcomes) : Option Nat := OutboundTls.leftOpen 1 [o.notFound, o.createUser, o.getUsers]

end SockShop.OutboundTls
