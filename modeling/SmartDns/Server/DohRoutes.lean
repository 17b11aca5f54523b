import SmartDns.Core.DomainSet
import SmartDns.Pipeline.Outcome
import SmartDns.Server.Doh
import SmartDns.Server.Tcp
set_option autoImplicit false

/-!
DNS over HTTPS: the two routes of the server, and a client of this project that asks them.
-/

namespace SmartDns.Doh

open QueryText (Bytes parseQsl)
open UrlText (urlsplit)
open PyText (strip partition)

def DOH_MEDIA_TYPE : List Char := "application/dns-message".toList

/-- What the routes read of a request. Header names are in lower case. -/
structure Request where
  method : String
  queryParams : List (List Char × List Char)
  headers : List (String × List Char)
  body : Bytes
  client : Option (String × ℕ)

structure Response where
  content : Bytes
  mediaType : List Char
  headers : List (String × String)
  deriving DecidableEq

inductive Failure where
  | http (e : HTTPException)
  | raised (e : PyException)
  deriving DecidableEq

variable (lower : List Char → List Char)

/-- `value.split(";", 1)[0].strip().lower()`. -/
def mediaType (value : List Char) : List Char := lower (strip (partition ';' value).1)

def normalizeMediaType (value : Option (List Char)) : Option (List Char) :=
  value.map (mediaType lower)

def ensureAcceptsDnsMessage : Option (List Char) → Except Failure Unit
  | none => .ok ()
  | some value =>
    if strip value = [] then .ok ()
    else
      let mediaTypes := ((value.splitOn ',').filter (strip · ≠ [])).map (mediaType lower)
      if DOH_MEDIA_TYPE ∈ mediaTypes ∨ "*/*".toList ∈ mediaTypes ∨
          "application/*".toList ∈ mediaTypes then .ok ()
      else .error (.http ⟨406,"response type not acceptable"⟩)

def authorityTtls (response : Message) : List ℕ :=
  response.authority.flatMap fun rrset =>
    if rrset.rdclass ≠ RdataClass.IN ∨ rrset.rdtype ≠ RdataType.SOA then []
    else rrset.items.filterMap fun
      | .soa minimum => some (min rrset.ttl minimum)
      | _ => none

/-- The seconds in the header, if it has any. -/
def maxAge (response : Message) : Option ℕ :=
  match (response.answer.map RRset.ttl).min? with
  | some ttl => some ttl
  | none => (authorityTtls response).min?

def cacheControlHeader (response : Message) : String :=
  match maxAge response with
  | some seconds => "max-age=" ++ toString seconds
  | none => "no-store"

def clientAddress (request : Request) : String × ℕ := request.client.getD ("0.0.0.0",0)

variable (format : WireFormat)
  (processQuery : Message → String × ℕ → Except PyException (Option Message))

def raised {α : Type} : Except PyException α → Except Failure α := Except.mapError .raised

def handleDohWire (request : Request) (wire : Bytes) (isGet : Bool) : Except Failure Response := do
  ensureAcceptsDnsMessage lower (request.headers.lookup "accept")
  match format.fromWire wire with
  | .error _ => .error (.http ⟨400,"invalid dns message"⟩)
  | .ok message => do
    let response ← raised (processQuery message (clientAddress request))
    let response ← match response with
      | some response => .ok response
      | none => raised (makeErrorResponse message Rcode.REFUSED)
    let content ← raised (format.toWire response)
    .ok
      { content, mediaType := DOH_MEDIA_TYPE
        headers := if isGet then [("Cache-Control",cacheControlHeader response)] else [] }

/-- The last `dns` parameter is the one that counts. -/
def handleGet (request : Request) : Except Failure Response :=
  match request.queryParams.reverse.lookup dnsParam with
  | none => .error (.http ⟨400,"missing dns query parameter"⟩)
  | some dns => do
    let wire ← Except.mapError Failure.http (decodeDohQuery dns)
    handleDohWire lower format processQuery request wire true

def handlePost (request : Request) : Except Failure Response :=
  if normalizeMediaType lower (request.headers.lookup "content-type") ≠ some DOH_MEDIA_TYPE then
    .error (.http ⟨415,"unsupported media type"⟩)
  else if request.body = [] then .error (.http ⟨400,"empty dns request body"⟩)
  else handleDohWire lower format processQuery request request.body false

def dohRoutes (request : Request) : Except Failure Response :=
  if request.method = "GET" then handleGet lower format processQuery request
  else if request.method = "POST" then handlePost lower format processQuery request
  else .error (.http ⟨405,"Method Not Allowed"⟩)

/-! ### The client -/

structure DoHRequest where
  method : String
  url : List Char
  headers : List (String × List Char)
  body : Option Bytes

section
variable (replaced : Bytes → List Char) (admits : List Char → Bool)

/-- A host for the header may be given, and an empty one is none. -/
def buildDohRequest (request : Message) (url : List Char) (wantGet : Bool)
    (httpHost : Option (List Char)) : Except PyException DoHRequest := do
  let wire ← format.toWire request
  let host := (httpHost.filter (· ≠ [])).toList.map fun host => ("Host",host)
  let headers := ("Accept",DOH_MEDIA_TYPE) :: host
  if wantGet then
    match urlWithDnsParam replaced admits url wire with
    | some url => .ok ⟨"GET",url,headers,none⟩
    | none => .error (.valueError "Invalid URL")
  else .ok ⟨"POST",url,headers ++ [("Content-Type",DOH_MEDIA_TYPE)],some wire⟩

def parseDohResponse (content : Bytes) : Except PyException Message := format.fromWire content

/-- HTTP brings the server what the client sent. -/
structure Carries (sent : DoHRequest) (request : Request) : Prop where
  method : request.method = sent.method
  queryParams : ∀ parts, urlsplit admits sent.url = some parts →
    request.queryParams = parseQsl replaced parts.query
  accept : request.headers.lookup "accept" = sent.headers.lookup "Accept"
  contentType : request.headers.lookup "content-type" = sent.headers.lookup "Content-Type"
  body : request.body = sent.body.getD []

end

/-! ### How long a response may be kept -/

/-- None of the records that the response is for is older than this before it expires. -/
structure Lasts (seconds : ℕ) (response : Message) : Prop where
  answer : ∀ rrset ∈ response.answer, seconds ≤ rrset.ttl
  authority : response.answer = [] → ∀ rrset ∈ response.authority,
    rrset.rdclass = RdataClass.IN → rrset.rdtype = RdataType.SOA →
      ∀ minimum, Rdata.soa minimum ∈ rrset.items → seconds ≤ rrset.ttl ∧ seconds ≤ minimum

theorem mem_authorityTtls {response : Message} {rrset : RRset} (hrrset : rrset ∈ response.authority)
    (hclass : rrset.rdclass = RdataClass.IN) (htype : rrset.rdtype = RdataType.SOA) {minimum : ℕ}
    (hsoa : Rdata.soa minimum ∈ rrset.items) :
    min rrset.ttl minimum ∈ authorityTtls response := by
  refine List.mem_flatMap.mpr ⟨rrset,hrrset,?_⟩
  rw [if_neg (by simp [hclass,htype])]
  exact List.mem_filterMap.mpr ⟨_,hsoa,rfl⟩

theorem lasts_maxAge {response : Message} {seconds : ℕ} (h : maxAge response = some seconds) :
    Lasts seconds response := by
  unfold maxAge at h
  split at h
  · rename_i ttl hmin
    cases h
    have hle := (List.min?_eq_some_iff.mp hmin).2
    have hanswer : ∀ rrset ∈ response.answer, seconds ≤ rrset.ttl :=
      fun rrset hrrset => hle _ (List.mem_map_of_mem hrrset)
    refine ⟨hanswer,fun hnil => ?_⟩
    rw [hnil] at hmin
    cases hmin
  · rename_i hmin
    have hnil : response.answer = [] := List.map_eq_nil_iff.mp (List.min?_eq_none_iff.mp hmin)
    have hle := (List.min?_eq_some_iff.mp h).2
    refine ⟨by simp [hnil],fun _ rrset hrrset hclass htype minimum hsoa => ?_⟩
    exact le_min_iff.mp (hle _ (mem_authorityTtls hrrset hclass htype hsoa))

/-! ### The exchange -/

section
variable {lower : List Char → List Char} {format : WireFormat}
  {processQuery : Message → String × ℕ → Except PyException (Option Message)} {request : Request}

theorem mediaType_own (hlower : LowersAscii lower) :
    mediaType lower DOH_MEDIA_TYPE = DOH_MEDIA_TYPE := by
  have hascii : (DOH_MEDIA_TYPE.all fun c => c.toNat < 128) = true := by decide
  have hwhole : partition ';' DOH_MEDIA_TYPE = (DOH_MEDIA_TYPE,[]) :=
    PyText.partition_of_not_mem (by decide)
  have hstrip : strip DOH_MEDIA_TYPE = DOH_MEDIA_TYPE := by decide
  rw [mediaType,hwhole,hstrip,
    hlower _ fun c hc => of_decide_eq_true (List.all_eq_true.mp hascii c hc)]
  decide

theorem ensureAccepts_own (hlower : LowersAscii lower) :
    ensureAcceptsDnsMessage lower (some DOH_MEDIA_TYPE) = .ok () := by
  have hparts : (DOH_MEDIA_TYPE.splitOn ',').filter (strip · ≠ []) = [DOH_MEDIA_TYPE] := by decide
  have hne : strip DOH_MEDIA_TYPE ≠ [] := by decide
  simp only [ensureAcceptsDnsMessage,if_neg hne,hparts,List.map_cons,List.map_nil,
    mediaType_own hlower,List.mem_singleton,true_or,if_true]

/-- `response` is what the client is to get when the query `m` is answered so. -/
def Answers (m : Message) (answer : Option Message) (response : Message) : Prop :=
  answer = some response ∨ answer = none ∧ makeErrorResponse m Rcode.REFUSED = .ok response

theorem handleDohWire_ok (hlower : LowersAscii lower)
    (haccept : request.headers.lookup "accept" = some DOH_MEDIA_TYPE) {wire content : Bytes}
    {m response : Message} {answer : Option Message} (hwire : format.fromWire wire = .ok m)
    (hanswer : processQuery m (clientAddress request) = .ok answer)
    (hresponse : Answers m answer response) (hcontent : format.toWire response = .ok content)
    (isGet : Bool) :
    handleDohWire lower format processQuery request wire isGet = .ok
      { content, mediaType := DOH_MEDIA_TYPE
        headers := if isGet then [("Cache-Control",cacheControlHeader response)] else [] } := by
  unfold handleDohWire
  rw [haccept,ensureAccepts_own hlower]
  obtain rfl | ⟨rfl,hrefused⟩ := hresponse
  · simp [hwire,hanswer,hcontent,raised,Except.mapError,bind,Except.bind]
  · simp [hwire,hanswer,hrefused,hcontent,raised,Except.mapError,bind,Except.bind]

variable {replaced : Bytes → List Char} {admits : List Char → Bool}

theorem dohRoutes_get {url built : List Char} {wire : Bytes}
    (hurl : urlWithDnsParam replaced admits url wire = some built)
    (hmethod : request.method = "GET")
    (hquery : ∀ parts, urlsplit admits built = some parts →
      request.queryParams = parseQsl replaced parts.query) :
    dohRoutes lower format processQuery request =
      handleDohWire lower format processQuery request wire true := by
  have hsplit : ∃ parts, urlsplit admits url = some parts := by
    unfold urlWithDnsParam at hurl
    obtain ⟨parts,hparts,-⟩ := Option.bind_eq_some_iff.mp hurl
    exact ⟨parts,hparts⟩
  obtain ⟨parts,hparts⟩ := hsplit
  obtain ⟨built',query,hbuilt,hsplit,hitems⟩ := @urlWithDnsParam_eq replaced _ _ _ hparts wire
  cases hurl.symm.trans hbuilt
  have hlast : request.queryParams.reverse.lookup dnsParam = some (base64urlNoPadding wire) := by
    rw [hquery _ hsplit,hitems]
    simp
  simp [dohRoutes,hmethod,handleGet,hlast,decodeDohQuery_base64urlNoPadding,Except.mapError,bind,
    Except.bind]

theorem dohRoutes_post (hlower : LowersAscii lower) {wire : Bytes}
    (hmethod : request.method = "POST")
    (htype : request.headers.lookup "content-type" = some DOH_MEDIA_TYPE)
    (hbody : request.body = wire) (hwire : wire ≠ []) :
    dohRoutes lower format processQuery request =
      handleDohWire lower format processQuery request wire false := by
  simp [dohRoutes,hmethod,handlePost,htype,normalizeMediaType,mediaType_own hlower,hbody,hwire]

/-- A client that sends a query by `GET` or `POST` gets what the query is answered with, or a
refusal where it is dropped, and by `GET` is told to keep it no longer than its records last. -/
theorem doh_exchange (hlower : LowersAscii lower) {m response : Message} {url : List Char}
    {wantGet : Bool} {httpHost : Option (List Char)} {built : DoHRequest}
    (hbuilt : buildDohRequest format replaced admits m url wantGet httpHost = .ok built)
    (hcarries : Carries replaced admits built request) {answer : Option Message}
    (hanswer : processQuery m.merged (clientAddress request) = .ok answer)
    (hresponse : Answers m.merged answer response) {content : Bytes}
    (hcontent : format.toWire response = .ok content) :
    ∃ reply, dohRoutes lower format processQuery request = .ok reply ∧
      parseDohResponse format reply.content = .ok response.merged ∧
      (wantGet = false → reply.headers = []) ∧
      (wantGet = true → ∃ text, reply.headers = [("Cache-Control",text)] ∧
        (text = "no-store" ∨ ∃ seconds, text = "max-age=" ++ toString seconds ∧
          Lasts seconds response)) := by
  obtain ⟨wire,hwire,hbuilt⟩ := Exec.except_bind_eq_ok.mp hbuilt
  have hmessage := format.roundTrip m wire hwire
  have hback := format.roundTrip response content hcontent
  have haccept {isGet : Bool} (h : request.headers.lookup "accept" = some DOH_MEDIA_TYPE) :=
    handleDohWire_ok hlower h hmessage hanswer hresponse hcontent isGet
  cases wantGet with
  | true =>
    simp only [if_true] at hbuilt
    split at hbuilt
    · rename_i built' hurl
      cases hbuilt
      refine ⟨_,(dohRoutes_get hurl hcarries.method hcarries.queryParams).trans
        (haccept hcarries.accept),hback,by simp,fun _ => ⟨_,rfl,?_⟩⟩
      unfold cacheControlHeader
      cases hage : maxAge response with
      | none => exact .inl rfl
      | some seconds => exact .inr ⟨seconds,rfl,lasts_maxAge hage⟩
    · cases hbuilt
  | false =>
    simp only [Bool.false_eq_true,if_false] at hbuilt
    cases hbuilt
    have htype : request.headers.lookup "content-type" = some DOH_MEDIA_TYPE := by
      rw [hcarries.contentType]
      cases httpHost.filter (· ≠ []) <;> rfl
    have hheader := format.header m wire hwire
    have hne : wire ≠ [] := by
      intro hnil
      simp [hnil] at hheader
    exact ⟨_,(dohRoutes_post hlower hcarries.method htype hcarries.body hne).trans
      (haccept hcarries.accept),hback,fun _ => rfl,by simp⟩

end

def hostService : Message → String × ℕ → Except PyException (Option Message) :=
  fun _ _ => .ok (some Tcp.hostReply)

/-- The query is asked by `GET` and answered. -/
theorem doh_exchange_host : ∃ built request reply,
    buildDohRequest Tcp.hostFormat (fun _ => []) (fun _ => true) Tcp.hostQuery
      "https://host/dns-query?a=1".toList true none = .ok built ∧
    dohRoutes (List.map Char.toLower) Tcp.hostFormat hostService request = .ok reply ∧
    parseDohResponse Tcp.hostFormat reply.content = .ok Tcp.hostReply ∧
    ∃ text, reply.headers = [("Cache-Control",text)] := by
  have hsplit : urlsplit (fun _ => true) "https://host/dns-query?a=1".toList =
      some ⟨"https".toList,"host".toList,"/dns-query".toList,"a=1".toList,[]⟩ := by decide +kernel
  obtain ⟨url,query,hurl,hparts,-⟩ :=
    @urlWithDnsParam_eq (fun _ => []) _ _ _ hsplit Tcp.hostQueryWire
  have hwire : Tcp.hostFormat.toWire Tcp.hostQuery = .ok Tcp.hostQueryWire := by decide
  let built : DoHRequest := ⟨"GET",url,[("Accept",DOH_MEDIA_TYPE)],none⟩
  let request : Request :=
    { method := "GET", queryParams := parseQsl (fun _ => []) query
      headers := [("accept",DOH_MEDIA_TYPE)], body := [], client := none }
  have hbuilt : buildDohRequest Tcp.hostFormat (fun _ => []) (fun _ => true) Tcp.hostQuery
      "https://host/dns-query?a=1".toList true none = .ok built := by
    refine Exec.except_bind_eq_ok.mpr ⟨_,hwire,?_⟩
    simp only [if_true,hurl]
    rfl
  have hcarries : Carries (fun _ => []) (fun _ => true) built request := by
    refine ⟨rfl,fun parts h => ?_,rfl,rfl,rfl⟩
    cases hparts.symm.trans h
    rfl
  have hlower : LowersAscii (List.map Char.toLower) := fun _ _ => rfl
  have hanswer : hostService Tcp.hostQuery.merged (clientAddress request) =
      .ok (some Tcp.hostReply) := rfl
  have hcontent : Tcp.hostFormat.toWire Tcp.hostReply = .ok Tcp.hostReplyWire := by decide
  obtain ⟨reply,hreply,hcontent,-,hheaders⟩ :=
    doh_exchange hlower hbuilt hcarries hanswer (.inl rfl) hcontent
  obtain ⟨text,htext,-⟩ := hheaders rfl
  exact ⟨built,request,reply,hbuilt,hreply,hcontent,text,htext⟩

end SmartDns.Doh
