import Vole.Routing.Model.Rules

/-!
# The answers that belong to a question

`dns::runtime::matching_answer_set`, on a response as `parse_response`
leaves it. Names are compared as they stand. The inner loop assigns `target` and
`link_ttl` together, so they are one value.
-/

namespace Vole.Dns

/-- `QueryType`. -/
inductive QueryType where
  | a
  | aaaa
  deriving DecidableEq, Repr

/-- `RecordData`. -/
inductive RecordData where
  | a (address : BitVec 32)
  | aaaa (address : BitVec 128)
  | cname (target : Bytes)
  deriving DecidableEq, Repr

/-- `DnsRecord`. -/
structure DnsRecord where
  name : Bytes
  ttl : ℕ
  data : RecordData
  deriving DecidableEq, Repr

/-- `DnsQuestion`. -/
structure DnsQuestion where
  name : Bytes
  queryType : QueryType
  deriving DecidableEq, Repr

/-- What `matching_answer_set` reads of a `DnsMessage`. -/
structure DnsMessage where
  question : DnsQuestion
  answers : List DnsRecord
  answerCount : ℕ
  deriving DecidableEq, Repr

/-- The errors of `DnsError` that it returns. -/
inductive DnsError where
  | tooManyAnswers
  | invalidCnameChain
  deriving DecidableEq, Repr

/-- `MatchingAnswerSet`. -/
structure MatchingAnswerSet where
  addresses : List IpAddr
  ttl : Option ℕ
  deriving DecidableEq, Repr

/-- `MAX_RESPONSE_RECORDS`. -/
def maxResponseRecords : ℕ := 64

/-- `MAX_ANSWERS`. -/
def maxAnswers : ℕ := 16

/-- `Some(ttl.map_or(value, |ttl| ttl.min(value)))`. -/
def lower (ttl : Option ℕ) (value : ℕ) : Option ℕ :=
  some (ttl.elim value (min · value))

/-- One answer in the search for the link from `current`. -/
def linkStep (current : Bytes) (link : Option (Bytes × ℕ)) (answer : DnsRecord) :
    Except DnsError (Option (Bytes × ℕ)) :=
  if answer.name ≠ current then .ok link
  else match answer.data with
    | .cname candidate =>
      if link.any (·.1 ≠ candidate) then .error .invalidCnameChain
      else .ok ((lower (link.map (·.2)) answer.ttl).map (candidate, ·))
    | _ => .ok link

/-- The outer loop, with `left` iterations to go. -/
def follow (answers : List DnsRecord) : ℕ → Bytes → List Bytes → Option ℕ →
    Except DnsError (Bytes × Option ℕ)
  | 0, current, _, ttl => .ok (current, ttl)
  | left + 1, current, visited, ttl =>
    match answers.foldlM (linkStep current) none with
    | .error error => .error error
    | .ok none => .ok (current, ttl)
    | .ok (some (next, linkTtl)) =>
      if next ∈ visited then .error .invalidCnameChain
      else follow answers left next (visited ++ [next]) (lower ttl linkTtl)

/-- The address of a record of the question's type. -/
def answerAddress : QueryType → RecordData → Option IpAddr
  | .a, .a address => some (.v4 address)
  | .aaaa, .aaaa address => some (.v6 address)
  | _, _ => none

/-- One answer in the loop over the addresses of the terminal name. -/
def collectStep (queryType : QueryType) (current : Bytes) (set : MatchingAnswerSet)
    (answer : DnsRecord) : MatchingAnswerSet :=
  if answer.name ≠ current then set
  else match answerAddress queryType answer.data with
    | none => set
    | some address =>
      { addresses :=
          if set.addresses.length < maxAnswers ∧ address ∉ set.addresses then
            set.addresses ++ [address]
          else set.addresses
        ttl := lower set.ttl answer.ttl }

/-- `matching_answer_set`. -/
def matchingAnswerSet (response : DnsMessage) : Except DnsError MatchingAnswerSet :=
  if response.answerCount > maxResponseRecords ∨ response.answers.length > maxResponseRecords then
    .error .tooManyAnswers
  else match follow response.answers maxResponseRecords response.question.name
      [response.question.name] none with
    | .error error => .error error
    | .ok (current, ttl) =>
      .ok (response.answers.foldl (collectStep response.question.queryType current) ⟨[], ttl⟩)

end Vole.Dns
