import SmartDns.Core.DomainSet
import SmartDns.IpFilter.Plugin
import SmartDns.Rules.Selection
set_option autoImplicit false

/-!
`tag_plugin` and `redirect_plugin`, the hooks that look names up by their text. The entry
`redirect_target` of the metadata, which only a test reads, is not kept.
-/

namespace SmartDns

open Rules (Rdatatypes)

/-- The address hints of a HTTPS record, in the order they are asked for. -/
inductive HintKey where
  | ipv4hint | ipv6hint
  deriving DecidableEq, Repr

/-- What the hooks take from dnspython and Python. `hint` is an entry of a record's `params`,
`cnameFromText` the target of a CNAME record's text. -/
structure NameTexts where
  lower : List Char → List Char
  rdatatypes : Rdatatypes
  nameFromText : List Char → Except PyException Name
  cnameFromText : List Char → Except PyException Name
  hint : Rdata → HintKey → Option (List IPAddress)

namespace TagPlugin

variable {E : Type} (texts : NameTexts) (domainset : DomainSet) (ipset : IPSet)

def hasHintTag : String := "has_hint"

def onRequest : Exec PyException (RequestContext E) Unit := do
  let context ← Exec.get
  let question ← Exec.ofExcept (firstQuestion context.request)
  let qname := PyText.rstripBy isDot question.name.toText
  let addedTags ← Exec.ofExcept (domainset.lookup texts.lower qname)
  Exec.modify fun context => { context with tags := context.tags ∪ addedTags }

def extractCnameChainDomains : Option Answer → List (List Char)
  | none => []
  | some answer =>
    (answer.cnames.map fun rrset => PyText.rstripBy isDot rrset.name.toText) ++
      [PyText.rstripBy isDot answer.canonicalName.toText]

/-- The lists of hints that one record has. -/
def recordHints (record : Rdata) : List (List IPAddress) :=
  [HintKey.ipv4hint,HintKey.ipv6hint].filterMap (texts.hint record)

def extractHttpsHints (rrset : RRset) : List IPAddress × Bool :=
  let hints := rrset.items.flatMap (recordHints texts)
  (hints.flatten,!hints.isEmpty)

/-- Records without an address are passed over. -/
def extractAddressRecordIps (rrset : RRset) : List IPAddress :=
  rrset.items.filterMap fun record => record.address.toOption

def extractAnswerIps (answer : Answer) : List IPAddress :=
  match answer.rrset with
  | none => []
  | some rrset =>
    if answer.rdtype ∈ addressTypes then extractAddressRecordIps rrset
    else if answer.rdtype = RdataType.HTTPS then (extractHttpsHints texts rrset).1
    else []

def addTags (tags : Finset String) : Exec PyException UpstreamResult Unit :=
  Exec.modify fun result => { result with tags := result.tags ∪ tags }

def addDomainTags (domain : List Char) : Exec PyException UpstreamResult Unit := do
  let tags ← Exec.ofExcept (domainset.lookup texts.lower domain)
  addTags tags

def addHintTag (hasHints : Bool) : Exec PyException UpstreamResult Unit :=
  if hasHints then addTags {hasHintTag} else Exec.skip

/-- `on_upstream_response`, over the result object it edits. -/
def onUpstreamResponse (context : RequestContext E) : Exec PyException UpstreamResult Unit := do
  addTags context.tags
  let result ← Exec.get
  Exec.each (extractCnameChainDomains result.answer) (addDomainTags texts domainset)
  match result.answer with
  | none => pure ()
  | some answer =>
    match answer.rrset with
    | none => pure ()
    | some rrset =>
      if answer.rdtype = RdataType.HTTPS then
        let (hintIps,hasHints) := extractHttpsHints texts rrset
        addHintTag hasHints
        Exec.each hintIps fun ip => addTags (ipset.lookup ip)
      else Exec.each (extractAnswerIps texts answer) fun ip => addTags (ipset.lookup ip)

end TagPlugin

namespace RedirectPlugin

variable {E W : Type} (codec : Codec W) (texts : NameTexts) (now : ℚ)
  (redirects : List (List Char × List Char))
  (resolve : List Char → String → Except PyException Answer)

/-- `dns.rrset.from_text` for one CNAME record. -/
def cnameRRset (ownerText : List Char) (ttl : Nat) (targetText : List Char) :
    Except PyException RRset := do
  let owner ← texts.nameFromText ownerText
  let target ← texts.cnameFromText targetText
  pure
    { name := owner, rdclass := RdataClass.IN, rdtype := RdataType.CNAME, ttl
      items := [.cname target]
      nonempty := List.cons_ne_nil _ _
      distinct := List.nodup_singleton _ }

/-- The flags of the source carry its opcode along. -/
def buildRedirectResponse (request : Message) (targetDomain : List Char)
    (rrset : RRset) (sourceResponse : Message) : Except PyException Message := do
  let response ← makeResponse request
  let question ← firstQuestion request
  let aliased ← cnameRRset texts question.name.toText (max rrset.ttl 1) (targetDomain ++ ['.'])
  pure { response with
    flags := sourceResponse.flags
    opcode := sourceResponse.opcode
    rcode := sourceResponse.rcode
    answer := response.answer ++ [aliased] ++ sourceResponse.answer
    authority := response.authority ++ sourceResponse.authority
    additional := response.additional ++ sourceResponse.additional }

/-- `on_request`. What `context.resolve` raises is logged only, whatever it is. -/
def onRequest : Exec PyException (RequestContext E) Unit := do
  let context ← Exec.get
  if context.finalAnswer.isSome || context.finalResponse.isSome then pure ()
  else
    let question ← Exec.ofExcept (firstQuestion context.request)
    let sourceDomain ← Exec.ofExcept (normalizeDomain texts.lower question.name.toText)
    match redirects.lookup sourceDomain with
    | none => pure ()
    | some targetDomain =>
      let qtype := texts.rdatatypes.upper (texts.rdatatypes.toText question.rdtype)
      match resolve targetDomain qtype with
      | .error _ => pure ()
      | .ok redirectedAnswer =>
        match redirectedAnswer.rrset with
        | none => pure ()
        | some rrset =>
          let response ← Exec.ofExcept (buildRedirectResponse texts context.request targetDomain
            rrset redirectedAnswer.response)
          let answer ← Exec.ofExcept (buildAnswerFromResponse codec now context.request response)
          Exec.modify fun context => { context with finalAnswer := some answer }

end RedirectPlugin

/-! ### When the hooks complete -/

section
variable {E W : Type}

/-- No hook raises: on the request, on an upstream's result, and the redirect. -/
structure HooksComplete (codec : Codec W) (texts : NameTexts) (now : ℚ) (domainset : DomainSet)
    (ipset : IPSet) (redirects : List (List Char × List Char))
    (resolve : List Char → String → Except PyException Answer) (context : RequestContext E)
    (result : UpstreamResult) : Prop where
  tagRequest : (TagPlugin.onRequest texts domainset).Completes context
  tagResponse : (TagPlugin.onUpstreamResponse texts domainset ipset context).Completes result
  redirect : (RedirectPlugin.onRequest codec texts now redirects resolve).Completes context

/-- The redirect's response, once its texts are parsed. -/
def redirectResponse (request : Message) (owner target : Name) (ttl : Nat) (source : Message) :
    Message where
  id := request.id
  flags := source.flags
  opcode := source.opcode
  rcode := source.rcode
  question := request.question
  answer :=
    { name := owner, rdclass := RdataClass.IN, rdtype := RdataType.CNAME, ttl
      items := [.cname target]
      nonempty := List.cons_ne_nil _ _
      distinct := List.nodup_singleton _ } :: source.answer
  authority := source.authority
  additional := source.additional

/-- The request is a query, the configured target is the text of a name, and the message with
the alias in front goes over the wire and resolves. -/
def Redirectable (codec : Codec W) (texts : NameTexts) (request : Message) (owner : Name)
    (targetDomain : List Char) (ttl : Nat) (source : Message) : Prop :=
  request.flags.qr = false ∧ ∃ target, texts.cnameFromText (targetDomain ++ ['.']) = .ok target ∧
    codec.Encodes (redirectResponse request owner target (max ttl 1) source) ∧
      ∃ ch,
        resolveChaining (redirectResponse request owner target (max ttl 1) source).merged = .ok ch

/-- A redirect that is configured for the question and resolves to records can be answered. -/
def RedirectsFit (codec : Codec W) (texts : NameTexts) (redirects : List (List Char × List Char))
    (resolve : List Char → String → Except PyException Answer) (request : Message) (q : Question) :
    Prop :=
  ∀ source, normalizeDomain texts.lower q.name.toText = .ok source →
    ∀ target, redirects.lookup source = some target →
      ∀ answer, resolve target (texts.rdatatypes.upper (texts.rdatatypes.toText q.rdtype)) =
          .ok answer →
        ∀ rrset, answer.rrset = some rrset →
          Redirectable codec texts request q.name target rrset.ttl answer.response

/-- The names that the domain tags of a result are looked up for. -/
def tagNames : Option Answer → List Name
  | none => []
  | some answer => answer.cnames.map RRset.name ++ [answer.canonicalName]

/-- The root is neither asked for nor in the chain where there are domain tags, and it is not
asked for where a redirect is looked up; a redirect that is found can be answered. -/
structure HooksFit (codec : Codec W) (texts : NameTexts) (domainset : DomainSet)
    (redirects : List (List Char × List Char))
    (resolve : List Char → String → Except PyException Answer) (context : RequestContext E)
    (q : Question) (result : UpstreamResult) : Prop where
  asked : domainset.trie = none ∨ q.name ≠ Name.root
  chain : domainset.trie = none ∨ ∀ n ∈ tagNames result.answer, n ≠ Name.root
  redirected : context.finalAnswer.isSome ∨ context.finalResponse.isSome ∨
    q.name ≠ Name.root ∧ RedirectsFit codec texts redirects resolve context.request q

variable {codec : Codec W} {texts : NameTexts} {now : ℚ} {domainset : DomainSet} {ipset : IPSet}
  {redirects : List (List Char × List Char)}
  {resolve : List Char → String → Except PyException Answer} {context : RequestContext E}
  {q : Question} {result : UpstreamResult}

theorem extractCnameChainDomains_eq (answer : Option Answer) :
    TagPlugin.extractCnameChainDomains answer =
      (tagNames answer).map fun n => PyText.rstripBy isDot n.toText := by
  cases answer with
  | none => rfl
  | some answer => simp [TagPlugin.extractCnameChainDomains,tagNames]

theorem tagRequest_completes_iff (hlower : LowersAscii texts.lower) (hvalid : q.name.Valid)
    (hq : firstQuestion context.request = .ok q) :
    (TagPlugin.onRequest texts domainset).Completes context ↔
      domainset.trie = none ∨ q.name ≠ Name.root := by
  rw [← DomainSet.lookup_toText_iff hlower hvalid]
  unfold TagPlugin.onRequest
  rw [Exec.completes_bind (Exec.run_get context),hq,Exec.completes_bind (Exec.run_ofExcept _ _),
    Exec.completes_ofExcept_bind]
  simp

theorem addTags_completes (tags : Finset String) (result : UpstreamResult) :
    (TagPlugin.addTags tags).Completes result := Exec.completes_modify _ _

theorem addEach_completes (ips : List IPAddress) (result : UpstreamResult) :
    (Exec.each ips fun ip => TagPlugin.addTags (ipset.lookup ip)).Completes result :=
  (Exec.completes_each (P:=fun _ => True) fun _ result =>
    iff_true_intro (addTags_completes _ result)).mpr fun _ _ => trivial

theorem addDomainTags_completes_iff (domain : List Char) (result : UpstreamResult) :
    (TagPlugin.addDomainTags texts domainset domain).Completes result ↔
      ∃ tags, domainset.lookup texts.lower domain = .ok tags := by
  unfold TagPlugin.addDomainTags
  rw [Exec.completes_ofExcept_bind]
  simp [addTags_completes]

theorem tagResponse_completes_iff (hlower : LowersAscii texts.lower)
    (hvalid : ∀ n ∈ tagNames result.answer, n.Valid) :
    (TagPlugin.onUpstreamResponse texts domainset ipset context).Completes result ↔
      domainset.trie = none ∨ ∀ n ∈ tagNames result.answer, n ≠ Name.root := by
  have hadded : TagPlugin.addTags context.tags result =
      (.ok (),{ result with tags := result.tags ∪ context.tags }) := rfl
  unfold TagPlugin.onUpstreamResponse
  rw [Exec.completes_bind hadded,Exec.completes_bind (Exec.run_get _),Exec.completes_bind_total]
  · rw [Exec.completes_each addDomainTags_completes_iff,extractCnameChainDomains_eq]
    simp only [List.forall_mem_map]
    constructor
    · intro h
      by_cases htrie : domainset.trie = none
      · exact .inl htrie
      · refine .inr fun n hn => ?_
        exact ((DomainSet.lookup_toText_iff hlower (hvalid n hn)).mp (h n hn)).resolve_left htrie
    · intro h n hn
      refine (DomainSet.lookup_toText_iff hlower (hvalid n hn)).mpr ?_
      exact h.imp_right fun hroots => hroots n hn
  · intro _ s
    -- the hints and addresses are looked up without parsing any text
    cases hanswer : result.answer with
    | none => exact Exec.completes_pure _ _
    | some answer =>
      cases hrrset : answer.rrset with
      | none =>
        simp only [hrrset]
        exact Exec.completes_pure _ _
      | some rrset =>
        by_cases hhttps : answer.rdtype = RdataType.HTTPS
        · have hhint : (TagPlugin.addHintTag (TagPlugin.extractHttpsHints texts rrset).2).Completes
              s := by
            unfold TagPlugin.addHintTag
            split
            · exact addTags_completes _ _
            · exact Exec.completes_pure _ _
          simp only [hrrset,hhttps,if_true]
          exact (Exec.completes_bind_total fun _ s => addEach_completes _ s).mpr hhint
        · simp only [hrrset,hhttps,if_false]
          exact addEach_completes _ _

theorem buildRedirect_ok_iff (hq : firstQuestion context.request = .ok q)
    (hname : texts.nameFromText q.name.toText = .ok q.name) {target : List Char} {rrset : RRset}
    {source response : Message} :
    RedirectPlugin.buildRedirectResponse texts context.request target rrset source = .ok response ↔
      context.request.flags.qr = false ∧
        ∃ cname, texts.cnameFromText (target ++ ['.']) = .ok cname ∧
          response = redirectResponse context.request q.name cname (max rrset.ttl 1) source := by
  unfold RedirectPlugin.buildRedirectResponse RedirectPlugin.cnameRRset
  rw [hq]
  cases hqr : context.request.flags.qr with
  | true => simp [makeResponse,hqr,bind,Except.bind]
  | false =>
    rw [makeResponse_ok hqr]
    cases hcname : texts.cnameFromText (target ++ ['.']) with
    | error e => simp [hname,bind,Except.bind]
    | ok cname => simp [hname,bind,Except.bind,pure,Except.pure,redirectResponse,eq_comm]

/-- The steps that follow a redirect with records. -/
theorem redirectTo_completes_iff (hq : firstQuestion context.request = .ok q)
    (hname : texts.nameFromText q.name.toText = .ok q.name) {target : List Char} {rrset : RRset}
    {source : Message} {f : Answer → RequestContext E → RequestContext E} :
    (do
      let response ← Exec.ofExcept
        (RedirectPlugin.buildRedirectResponse texts context.request target rrset source)
      let answer ← Exec.ofExcept (buildAnswerFromResponse codec now context.request response)
      Exec.modify (f answer) : Exec PyException (RequestContext E) Unit).Completes context ↔
      Redirectable codec texts context.request q.name target rrset.ttl source := by
  rw [Exec.completes_ofExcept_bind]
  simp only [Exec.completes_ofExcept_bind,Exec.completes_modify,and_true,
    buildAnswer_builds_iff hq,buildRedirect_ok_iff hq hname]
  constructor
  · intro h
    obtain ⟨_,⟨hqr,cname,hcname,rfl⟩,hencodes,hch⟩ := h
    exact ⟨hqr,cname,hcname,hencodes,hch⟩
  · intro h
    obtain ⟨hqr,cname,hcname,hencodes,hch⟩ := h
    exact ⟨_,⟨hqr,cname,hcname,rfl⟩,hencodes,hch⟩

theorem redirect_completes_iff (hlower : LowersAscii texts.lower) (hvalid : q.name.Valid)
    (hq : firstQuestion context.request = .ok q)
    (hname : texts.nameFromText q.name.toText = .ok q.name) :
    (RedirectPlugin.onRequest codec texts now redirects resolve).Completes context ↔
      context.finalAnswer.isSome ∨ context.finalResponse.isSome ∨
        q.name ≠ Name.root ∧ RedirectsFit codec texts redirects resolve context.request q := by
  rw [← normalizeDomain_toText_iff hlower hvalid]
  unfold RedirectPlugin.onRequest
  rw [Exec.completes_bind (Exec.run_get context)]
  cases hanswered : context.finalAnswer.isSome || context.finalResponse.isSome with
  | true =>
    have hset : context.finalAnswer.isSome = true ∨ context.finalResponse.isSome = true := by
      simpa using hanswered
    simp only [if_true,Exec.completes_pure,true_iff]
    exact hset.imp_right Or.inl
  | false =>
    obtain ⟨hanswer,hresponse⟩ := Bool.or_eq_false_iff.mp hanswered
    simp only [Bool.false_eq_true,if_false,hanswer,hresponse,false_or]
    rw [hq,Exec.completes_bind (Exec.run_ofExcept _ _),Exec.completes_ofExcept_bind]
    cases hsource : normalizeDomain texts.lower q.name.toText with
    | error e => simp
    | ok source =>
      simp only [RedirectsFit,hsource,Except.ok.injEq,exists_eq_left',exists_eq',true_and,
        forall_eq']
      cases redirects.lookup source with
      | none => simp
      | some target =>
        simp only [Option.some.injEq,forall_eq']
        cases resolve target (texts.rdatatypes.upper (texts.rdatatypes.toText q.rdtype)) with
        | error e => simp
        | ok answer =>
          simp only [Except.ok.injEq,forall_eq']
          cases answer.rrset with
          | none => simp
          | some rrset =>
            simp only [Option.some.injEq,forall_eq']
            exact redirectTo_completes_iff hq hname

/-- The hooks complete just when the root name comes to none of their lookups, and the redirect
that applies, if one does, can be answered. -/
theorem hooks_complete_iff (hlower : LowersAscii texts.lower)
    (hq : firstQuestion context.request = .ok q) (hvalid : q.name.Valid)
    (hnames : ∀ n ∈ tagNames result.answer, n.Valid)
    (hname : texts.nameFromText q.name.toText = .ok q.name) :
    HooksComplete codec texts now domainset ipset redirects resolve context result ↔
      HooksFit codec texts domainset redirects resolve context q result := by
  constructor
  · intro h
    exact ⟨(tagRequest_completes_iff hlower hvalid hq).mp h.tagRequest,
      (tagResponse_completes_iff hlower hnames).mp h.tagResponse,
      (redirect_completes_iff hlower hvalid hq hname).mp h.redirect⟩
  · intro h
    exact ⟨(tagRequest_completes_iff hlower hvalid hq).mpr h.asked,
      (tagResponse_completes_iff hlower hnames).mpr h.chain,
      (redirect_completes_iff hlower hvalid hq hname).mpr h.redirected⟩

end

/-! ### A host that is redirected, and the root -/

def hostTexts : NameTexts where
  lower := List.map Char.toLower
  rdatatypes := Rules.numberedTypes
  nameFromText text :=
    if text = hostName.toText then .ok hostName
    else if text = Name.root.toText then .ok Name.root
    else .error (.valueError "")
  cnameFromText text := if text = otherName.toText then .ok otherName else .error (.valueError "")
  hint _ _ := none

def hostDomains : DomainSet := ⟨some [⟨['h','.'],{"tagged"}⟩]⟩

/-- An upstream's answer for the host, which is an alias. -/
def aliasedResult : UpstreamResult where
  upstreamName := "up"
  durationMs := 1
  answer := some
    { hostAnswer [hostAlias] none with canonicalName := otherName, cnames := [hostAlias] }

def otherAnswer : Answer where
  qname := otherName
  rdtype := RdataType.A
  rdclass := RdataClass.IN
  response :=
    { id := 7, flags := { qr := true }, question := [⟨otherName,RdataType.A,RdataClass.IN⟩]
      answer := [addressOf otherName 1] }
  canonicalName := otherName
  cnames := []
  rrset := some (addressOf otherName 1)
  expiration := 60

def askedContext (q : Question) : RequestContext Unit where
  request := { id := 5, flags := { rd := true }, question := [q] }
  clientaddr := ""
  listenerName := ""
  requestId := 5
  extensions := ()

theorem hostTexts_lower : LowersAscii hostTexts.lower := fun _ _ => rfl

theorem hooks_complete_iff_host :
    HooksComplete directCodec hostTexts 0 hostDomains {} [(['h'],['o'])]
      (fun _ _ => .ok otherAnswer) (askedContext hostQuestion) aliasedResult := by
  refine (hooks_complete_iff hostTexts_lower rfl (by decide) (by decide) rfl).mpr
    ⟨.inr (by decide),.inr (by decide),.inr (.inr ⟨by decide,?_⟩)⟩
  intro source hsource target htarget answer hanswer rrset hrrset
  obtain rfl : ['h'] = source := Except.ok.inj hsource
  obtain rfl : ['o'] = target := Option.some.inj htarget
  obtain rfl : otherAnswer = answer := Except.ok.inj hanswer
  obtain rfl : addressOf otherName 1 = rrset := Option.some.inj hrrset
  refine ⟨rfl,otherName,rfl,⟨_,rfl⟩,?_⟩
  exact ⟨⟨otherName,some (addressOf otherName 1),60,[hostAlias]⟩,by decide⟩

def rootContext : RequestContext Unit := askedContext ⟨Name.root,2,RdataClass.IN⟩

def rootResult : UpstreamResult where
  upstreamName := "up"
  durationMs := 1
  answer := some { hostAnswer [] none with canonicalName := Name.root }

/-- A query for the name servers of the root, where one domain has a tag, and an upstream's
answer that ends at the root: each of the three hooks raises. -/
theorem hooks_rejectRoot :
    Name.root.Valid ∧
      TagPlugin.onRequest hostTexts hostDomains rootContext =
        (.error (.valueError "域名不能为空"),rootContext) ∧
      ¬ (TagPlugin.onUpstreamResponse hostTexts hostDomains {} rootContext).Completes rootResult ∧
      RedirectPlugin.onRequest directCodec hostTexts 0 [] (fun _ _ => .ok otherAnswer) rootContext =
        (.error (.valueError "域名不能为空"),rootContext) ∧
      ¬ HooksComplete directCodec hostTexts 0 hostDomains {} [] (fun _ _ => .ok otherAnswer)
        rootContext rootResult := by
  refine ⟨by decide,rfl,Exec.completes_raised rfl,rfl,fun h => ?_⟩
  exact Exec.completes_raised rfl h.tagRequest

end SmartDns
