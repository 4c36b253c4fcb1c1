import WorkflowInstall.Fault

/-!
# Answers of the hosting service

What comes back for a request.

## Main Definitions

* `Response` — an answer with a status
* `Response.header?` — one of its headers
* `Answer` — a response, or the failure to get one
* `Answer.isTransient` — whether the request may be sent again
-/

namespace WorkflowInstall.Github

/-- An answer with a status. -/
structure Response where
  /-- The status. -/
  status : Nat
  /-- The words beside the status. -/
  reason : Text
  /-- The headers. -/
  headers : List (Text × Text)
  /-- The content. -/
  body : Bytes
  deriving Repr

/-- The value of a header. Letters in upper case count as those in lower case, and of equal names
the last one counts. -/
def Response.header? (response : Response) (name : Text) : Option Text :=
  let isNamed (header : Text × Text) := Text.lowerAscii header.1 == Text.lowerAscii name
  (response.headers.reverse.find? isNamed).map Prod.snd

/-- The content as a text. -/
def Response.text (response : Response) : Text := Utf8.decodeLossy response.body

/-- Whether the service says that no more requests are allowed for now. -/
def Response.isRateLimited (response : Response) : Bool :=
  response.header? "X-RateLimit-Remaining" == some "0".toList

/-- What comes back for a request. -/
inductive Answer
  /-- A response. -/
  | received (response : Response)
  /-- No response came. -/
  | failed (kind message : Text)
  deriving Repr

/-- The statuses that may be different the next time. -/
def transientStatuses : List Nat := [429, 500, 502, 503, 504]

/-- Whether the request may be sent again: no response came, its status may be different the next
time, or no more requests are allowed for now. -/
def Answer.isTransient : Answer → Bool
  | .failed _ _ => true
  | .received response =>
    transientStatuses.contains response.status ||
      (response.status == 403 && response.isRateLimited)

/-- What an answer means that is not followed by another request, for a request that was sent to
`url` to look up `path`. -/
def Answer.outcome (path url : Text) : Answer → Except Fault Response
  | .failed kind message => .error (.transport kind message)
  | .received response =>
    let refuse (reason : ApiReason) : Except Fault Response :=
      .error (.api ⟨reason, some path, some (response.status : Int)⟩)
    if response.status = 404 then refuse .notFound
    else if response.status = 401 then refuse .unauthorized
    else if response.status = 403 then refuse .forbidden
    else if 400 ≤ response.status ∧ response.status < 600 then
      .error (.badStatus response.status response.reason url)
    else .ok response

end WorkflowInstall.Github
