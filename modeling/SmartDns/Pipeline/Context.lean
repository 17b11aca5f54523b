import SmartDns.Dns.Answer
import SmartDns.Lib.Exec
import Mathlib.Data.Finset.Basic
set_option autoImplicit false

/-! The request context, results of upstreams, and the conversions between answers
and responses. Python objects that functions edit in place are states of `Exec`,
so that an edit made before an exception is kept. -/

namespace SmartDns

structure UpstreamResult where
  upstreamName : String
  durationMs : ℚ
  answer : Option Answer := none
  error : Option PyException := none
  tags : Finset String := ∅
  collectedResults : List UpstreamResult := []

def UpstreamResult.success (r : UpstreamResult) : Bool := r.answer.isSome

/-- The entries of `metadata` that the engine itself writes. -/
structure Metadata where
  pluginOrder : List String := []
  pipelineError : Option PyException := none
  deriving DecidableEq, Repr

/-- The messages that `handle_message` goes on using while hooks can edit them in place: the one
that was decoded, and from its `except` clause on the reply. -/
structure Held where
  decoded : Message
  reply : Message := decoded
  deriving DecidableEq, Repr

/-- `RequestContext`; `extensions` is what the loaded plugins registered. `request` is the decoded
message until another is bound to it, so a hook that edits it in place sets `held.decoded` too. -/
structure RequestContext (E : Type) where
  request : Message
  held : Held := { decoded := request }
  clientaddr : String
  listenerName : String
  requestId : UInt16
  selectedRule : Option String := none
  selectedGroup : Option String := none
  selectedDispatcher : Option String := none
  finalAnswer : Option Answer := none
  finalResponse : Option Message := none
  dropRequest : Bool := false
  stopProcessing : Bool := false
  metadata : Metadata := {}
  tags : Finset String := ∅
  extensions : E
  upstreamResults : List UpstreamResult := []
  nestedResolveChain : List (String × String) := []
  nestedResolveMaxDepth : Nat := 8

section
variable {W : Type} (codec : Codec W)

def cloneResponseForRequest (response request : Message) : Except PyException Message := do
  let cloned ← codec.fromWire (← codec.toWire response)
  pure { cloned with id := request.id }

variable {codec} in
theorem cloneResponse_ok {response request : Message}
    (h : codec.Encodes response) :
    cloneResponseForRequest codec response request =
      .ok { response.merged with id := request.id } := by
  obtain ⟨w,hw⟩ := h
  simp [cloneResponseForRequest,hw,codec.roundTrip _ _ hw,bind,Except.bind,pure,Except.pure]

variable {codec} in
theorem cloneResponse_id {response request cloned : Message}
    (h : cloneResponseForRequest codec response request = .ok cloned) : cloned.id = request.id := by
  unfold cloneResponseForRequest at h
  cases hw : codec.toWire response with
  | error e => simp [hw,bind,Except.bind] at h
  | ok w =>
    simp only [hw,codec.roundTrip _ _ hw,bind,Except.bind,pure,Except.pure,Except.ok.injEq] at h
    rw [← h]

/-- `request.question[0]`. -/
def firstQuestion (request : Message) : Except PyException Question :=
  match request.question with
  | q :: _ => .ok q
  | [] => .error (.indexError "list index out of range")

/-- An answer whose chain ends without a record falls back to the first rrset. -/
def buildAnswerFromResponse (now : ℚ) (request response : Message) :
    Except PyException Answer := do
  let question ← firstQuestion request
  let normalized ← cloneResponseForRequest codec response request
  let answer ← mkAnswer now question.name question.rdtype question.rdclass normalized
  match answer.rrset, normalized.answer with
  | none, rrset :: _ =>
    pure { answer with
      rrset := some rrset, canonicalName := rrset.name, expiration := now+rrset.ttl }
  | _, _ => pure answer

theorem resolveChaining_id (m : Message) (id : UInt16) :
    resolveChaining { m with id } = resolveChaining m := rfl

/-- The lifetime of a built answer: that of the chain, or the TTL of the first rrset. -/
def builtLifetime (m : Message) (chain : ChainingResult) : Nat :=
  match chain.answer, m.answer with
  | none, rrset :: _ => rrset.ttl
  | _, _ => chain.minimumTtl

variable {codec} in
theorem buildAnswer_ok {now : ℚ} {request response : Message} {a : Answer}
    (h : buildAnswerFromResponse codec now request response = .ok a) :
    ∃ chain, codec.Encodes response ∧ resolveChaining response.merged = .ok chain ∧
      a.response = { response.merged with id := request.id } ∧
      a.expiration = now+builtLifetime response.merged chain ∧
      a.rrset = chain.answer.or response.merged.answer.head? := by
  unfold buildAnswerFromResponse at h
  cases hq : firstQuestion request with
  | error e => simp [hq,bind,Except.bind] at h
  | ok q =>
    cases hw : codec.toWire response with
    | error e => simp [hq,cloneResponseForRequest,hw,bind,Except.bind] at h
    | ok w =>
      have hencodes : codec.Encodes response := ⟨w,hw⟩
      rw [hq,cloneResponse_ok hencodes] at h
      simp only [bind,Except.bind] at h
      cases hmk : mkAnswer now q.name q.rdtype q.rdclass
          { response.merged with id := request.id } with
      | error e =>
        simp only [hmk] at h
        contradiction
      | ok built =>
        obtain ⟨chain,hchain,rfl⟩ := mkAnswer_ok.mp hmk
        rw [resolveChaining_id] at hchain
        refine ⟨chain,hencodes,hchain,?_⟩
        simp only [hmk] at h
        unfold builtLifetime
        split at h
        · rename_i rrset rest hanswer hsection
          cases h
          have hnone : chain.answer = none := hanswer
          have hcons : response.merged.answer = rrset :: rest := hsection
          exact ⟨rfl,rfl,by rw [hnone,hcons]; rfl⟩
        · rename_i hother
          cases h
          cases hanswer : chain.answer with
          | some rrset => exact ⟨rfl,rfl,rfl⟩
          | none =>
            have hnil : response.merged.answer = [] := by
              by_contra hne
              obtain ⟨rrset,rest,hsection⟩ := List.exists_cons_of_ne_nil hne
              exact hother rrset rest hanswer hsection
            exact ⟨rfl,by rw [hnil],by rw [hnil]; rfl⟩

variable {codec} in
theorem buildAnswer_builds_iff {now : ℚ} {request response : Message} {q : Question}
    (hq : firstQuestion request = .ok q) :
    (∃ a, buildAnswerFromResponse codec now request response = .ok a) ↔
      codec.Encodes response ∧ ∃ ch, resolveChaining response.merged = .ok ch := by
  constructor
  · intro h
    obtain ⟨a,ha⟩ := h
    obtain ⟨ch,hencodes,hch,_⟩ := buildAnswer_ok ha
    exact ⟨hencodes,ch,hch⟩
  · intro h
    obtain ⟨hencodes,ch,hch⟩ := h
    have hmk : mkAnswer now q.name q.rdtype q.rdclass { response.merged with id := request.id } =
        .ok _ := mkAnswer_ok.mpr ⟨ch,hch,rfl⟩
    unfold buildAnswerFromResponse
    rw [hq,cloneResponse_ok hencodes]
    simp only [bind,Except.bind,hmk]
    split
    · exact ⟨_,rfl⟩
    · exact ⟨_,rfl⟩

variable {codec} in
/-- Building an answer once more only moves its expiration. -/
theorem buildAnswer_later {now : ℚ} (now' : ℚ) {request response : Message} {a : Answer}
    (h : buildAnswerFromResponse codec now request response = .ok a) :
    ∃ a', buildAnswerFromResponse codec now' request response = .ok a' := by
  unfold buildAnswerFromResponse at h ⊢
  cases hq : firstQuestion request with
  | error e => simp [hq,bind,Except.bind] at h
  | ok q =>
    cases hclone : cloneResponseForRequest codec response request with
    | error e => simp [hq,hclone,bind,Except.bind] at h
    | ok normalized =>
      simp only [hq,hclone,bind,Except.bind] at h ⊢
      cases hmk : mkAnswer now q.name q.rdtype q.rdclass normalized with
      | error e => simp [hmk] at h
      | ok built =>
        obtain ⟨chain,hchain,_⟩ := mkAnswer_ok.mp hmk
        have hlater : mkAnswer now' q.name q.rdtype q.rdclass normalized = .ok _ :=
          mkAnswer_ok.mpr ⟨chain,hchain,rfl⟩
        simp only [hlater]
        split
        · exact ⟨_,rfl⟩
        · exact ⟨_,rfl⟩

variable {codec} in
theorem Codec.IgnoresId.encodes_iff (hid : codec.IgnoresId) (m : Message) (id : UInt16) :
    codec.Encodes { m with id } ↔ codec.Encodes m :=
  ⟨fun h => hid { m with id } m.id h,hid m id⟩

variable {codec} in
/-- A built answer asks what the request asks first. -/
theorem buildAnswer_question {now : ℚ} {request response : Message} {q : Question} {a : Answer}
    (hq : firstQuestion request = .ok q)
    (h : buildAnswerFromResponse codec now request response = .ok a) :
    a.qname = q.name ∧ a.rdtype = q.rdtype ∧ a.rdclass = q.rdclass := by
  obtain ⟨q',hq',h⟩ := Exec.except_bind_eq_ok.mp h
  obtain rfl : q = q' := Except.ok.inj (hq.symm.trans hq')
  obtain ⟨normalized,_,h⟩ := Exec.except_bind_eq_ok.mp h
  obtain ⟨built,hbuilt,h⟩ := Exec.except_bind_eq_ok.mp h
  obtain ⟨ch,_,rfl⟩ := mkAnswer_ok.mp hbuilt
  split at h
  · cases h
    exact ⟨rfl,rfl,rfl⟩
  · cases h
    exact ⟨rfl,rfl,rfl⟩

/-- The place of the last rrset of the type and class. -/
def targetIndex (rdtype : RdataType) (rdclass : RdataClass) : List RRset → Option Nat
  | [] => none
  | item :: l =>
    match targetIndex rdtype rdclass l with
    | some i => some (i+1)
    | none => if item.rdtype = rdtype ∧ item.rdclass = rdclass then some 0 else none

def writeBack (section' : List RRset) : Option Nat → Option RRset → List RRset
  | some i, none => section'.eraseIdx i
  | none, none => section'
  | some i, some rrset => section'.set i rrset
  | none, some rrset => section' ++ [rrset]

def mismatch : PyException := .valueError "answer.rrset 的类型或 class 与查询不一致"

def writtenBack (a : Answer) : Answer :=
  { a with response :=
    { a.response with
      answer := writeBack a.response.answer
        (targetIndex a.rdtype a.rdclass a.response.answer) a.rrset } }

def syncAnswerRrsetToResponse : Exec PyException Answer Unit := do
  let a ← Exec.get
  match a.rrset with
  | some rrset =>
    if rrset.rdtype ≠ a.rdtype ∨ rrset.rdclass ≠ a.rdclass then Exec.raise mismatch
    else Exec.modify writtenBack
  | none => Exec.modify writtenBack

def syncAnswerResponse (now : ℚ) : Exec PyException Answer Unit := do
  syncAnswerRrsetToResponse
  let a ← Exec.get
  let response ← Exec.ofExcept (codec.toWire a.response >>= codec.fromWire)
  let rebuilt ← Exec.ofExcept (mkAnswer now a.qname a.rdtype a.rdclass response)
  Exec.modify fun a =>
    { a with
      response := rebuilt.response
      canonicalName := rebuilt.canonicalName
      cnames := rebuilt.cnames
      rrset := rebuilt.rrset
      expiration := rebuilt.expiration }

end

def inheritRequestTags (result : UpstreamResult) (requestTags : Finset String) : UpstreamResult :=
  { result with tags := result.tags ∪ requestTags }

def makeErrorResponse (request : Message) (rcode : Rcode) : Except PyException Message := do
  let response ← makeResponse request
  pure { response with rcode, id := request.id }

end SmartDns
