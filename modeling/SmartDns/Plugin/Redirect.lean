import SmartDns.Plugin.Hooks
set_option autoImplicit false

/-!
What a redirected request is answered with: the target's records at the end of the target's
chain, behind an alias from the name that was asked for.
-/

namespace SmartDns

/-! ### A chain that is followed again -/

/-- A chain that ends at records is followed in another section, from other rounds and behind
other aliases, to the same records, as long as there are rounds. -/
theorem followChain_again {l l' : List RRset} {q q' : Question} {n : Nat} {qname : Name}
    {ttl : Nat} {cnames : List RRset} {r : ChainingResult}
    (h : followChain l q n qname ttl cnames = .ok r) (hends : r.answer.isSome = true)
    (hclass : q'.rdclass = q.rdclass) (htype : q'.rdtype = q.rdtype)
    (hrecords : ∀ name, findRRset l' name q.rdclass q.rdtype = findRRset l name q.rdclass q.rdtype)
    (haliases : ∀ name c, findRRset l name q.rdclass RdataType.CNAME = some c →
      findRRset l' name q.rdclass RdataType.CNAME = some c) :
    ∃ more, r.cnames = cnames ++ more ∧ ∀ m ttl' cnames',
      (more.length < m → ∃ ttl'', followChain l' q' m qname ttl' cnames' =
        .ok ⟨r.canonicalName,r.answer,ttl'',cnames' ++ more⟩) ∧
      (m ≤ more.length → followChain l' q' m qname ttl' cnames' = .error .chainTooLong) := by
  induction n generalizing qname ttl cnames with
  | zero => simp [followChain] at h
  | succ n ih =>
    unfold followChain at h
    split at h
    · rename_i rrset hfound
      cases h
      refine ⟨[],(List.append_nil _).symm,fun m ttl' cnames' => ⟨fun hm => ?_,fun hm => ?_⟩⟩
      · obtain ⟨m,rfl⟩ := Nat.exists_eq_succ_of_ne_zero (Nat.pos_iff_ne_zero.mp hm)
        refine ⟨min ttl' rrset.ttl,?_⟩
        simp [followChain,hclass,htype,hrecords,hfound]
      · obtain rfl := Nat.le_zero.mp hm
        rfl
    · rename_i hmissed
      split at h
      · cases h
        cases hends
      · rename_i htypeNe
        split at h
        · cases h
          cases hends
        · rename_i c hc
          split at h
          · cases h
          · rename_i target htarget
            obtain ⟨more,hmore,hagain⟩ := ih h
            refine ⟨c :: more,by rw [hmore,List.append_assoc]; rfl,fun m ttl' cnames' => ?_⟩
            cases m with
            | zero => exact ⟨fun hm => absurd hm (Nat.not_lt_zero _),fun _ => rfl⟩
            | succ m =>
              have hround : followChain l' q' (m+1) qname ttl' cnames' =
                  followChain l' q' m target (min ttl' c.ttl) (cnames' ++ [c]) := by
                simp [followChain,hclass,htype,hrecords,hmissed,htypeNe,haliases _ _ hc,htarget]
              obtain ⟨hshort,hlong⟩ := hagain m (min ttl' c.ttl) (cnames' ++ [c])
              rw [hround,List.length_cons]
              refine ⟨fun hm => ?_,fun hm => hlong (Nat.le_of_succ_le_succ hm)⟩
              obtain ⟨ttl'',hok⟩ := hshort (Nat.lt_of_succ_lt_succ hm)
              exact ⟨ttl'',by rw [hok,List.append_assoc]; rfl⟩

theorem resolveChaining_error {m : Message} {q : Question} {e : PyException}
    (hopcode : m.opcode = Opcode.QUERY) (hqr : m.flags.qr = true) (hquestion : m.question = [q])
    (h : followChain m.answer q maxChain q.name maxTtl [] = .error e) :
    resolveChaining m = .error e := by
  unfold resolveChaining
  rw [hopcode,hqr,hquestion]
  simp [bind,Except.bind,h]

/-! ### The message with the alias in front -/

theorem aliasItems_ne_nil (target : Name) : [Rdata.cname target] ≠ [] := List.cons_ne_nil _ _

theorem aliasItems_distinct (target : Name) : Keyed.Distinct Rdata.canon [Rdata.cname target] :=
  List.nodup_singleton _

theorem aliasItems_covered (target : Name) :
    ∀ rd ∈ [Rdata.cname target], rd.covers = RdataType.NONE :=
  List.forall_mem_singleton.mpr rfl

def redirectAlias (owner target : Name) (ttl : Nat) : RRset where
  name := owner
  rdclass := RdataClass.IN
  rdtype := RdataType.CNAME
  ttl := ttl
  items := [.cname target]
  nonempty := aliasItems_ne_nil target
  distinct := aliasItems_distinct target
  covered := aliasItems_covered target

/-- An answer is what the chain of its response leads to. -/
def Answer.Resolved (a : Answer) : Prop :=
  ∃ ttl, resolveChaining a.response = .ok ⟨a.canonicalName,a.rrset,ttl,a.cnames⟩

/-- The redirect's target was asked for and has records, and the section of its response has one
rrset for each key and none for the name that is redirected. -/
structure Targeted (q : Question) (target : Name) (a : Answer) (rrset : RRset) : Prop where
  resolved : a.Resolved
  records : a.rrset = some rrset
  question : a.response.question = [⟨target,q.rdtype,RdataClass.IN⟩]
  distinct : Keyed.Distinct RRset.key a.response.answer
  noRecords : findRRset a.response.answer q.name RdataClass.IN q.rdtype = none
  noAlias : findRRset a.response.answer q.name RdataClass.IN RdataType.CNAME = none

/-- The chain of the redirect's response. -/
def redirectedChain (link : RRset) (a : Answer) (rrset : RRset) : ChainingResult where
  canonicalName := a.canonicalName
  answer := some rrset
  minimumTtl := min (chainTtl (link :: a.cnames)) rrset.ttl
  cnames := link :: a.cnames

variable {q : Question} {target : Name} {a : Answer} {rrset : RRset} {request : Message}

theorem redirect_merged (h : Targeted q target a rrset) (ttl : Nat) :
    (redirectResponse request q.name target ttl a.response).merged.answer =
      redirectAlias q.name target ttl :: a.response.answer := by
  have hdistinct : Keyed.Distinct RRset.key
      (redirectAlias q.name target ttl :: a.response.answer) :=
    List.nodup_cons.mpr ⟨Keyed.lookup_none_iff.mp h.noAlias,h.distinct⟩
  exact Keyed.gather_of_distinct hdistinct

theorem redirect_chain (h : Targeted q target a rrset) (hclass : q.rdclass = RdataClass.IN)
    (htype : q.rdtype ≠ RdataType.CNAME) (hquestion : request.question = [q]) (ttl : Nat) :
    (a.cnames.length < 15 →
      resolveChaining (redirectResponse request q.name target ttl a.response).merged =
        .ok (redirectedChain (redirectAlias q.name target ttl) a rrset)) ∧
    (15 ≤ a.cnames.length →
      resolveChaining (redirectResponse request q.name target ttl a.response).merged =
        .error .chainTooLong) := by
  obtain ⟨minimumTtl,hresolved⟩ := h.resolved
  obtain ⟨hopcode,hqr,_,hasked,r,hchain,hrcode,hnegative⟩ := resolveChaining_ok.mp hresolved
  obtain rfl := (List.cons.inj (hasked.symm.trans h.question)).1
  obtain ⟨hanswer,hname,hcnames⟩ := negativeTtl_answer hnegative
  simp only at hanswer hname hcnames hchain
  have hsome : r.answer = some rrset := hanswer.symm.trans h.records
  let link := redirectAlias q.name target ttl
  let l := link :: a.response.answer
  have hrecords (name : Name) : findRRset l name RdataClass.IN q.rdtype =
      findRRset a.response.answer name RdataClass.IN q.rdtype := by
    have hkey : link.key ≠ rrkey name RdataClass.IN q.rdtype := fun heq =>
      htype (congrArg RRKey.rdtype heq).symm
    exact @Keyed.lookup_other _ _ _ _ [] _ _ _ hkey
  have haliases (name : Name) (c : RRset)
      (hc : findRRset a.response.answer name RdataClass.IN RdataType.CNAME = some c) :
      findRRset l name RdataClass.IN RdataType.CNAME = some c := by
    have hkey : link.key ≠ rrkey name RdataClass.IN RdataType.CNAME := by
      intro heq
      have hnone : Keyed.lookup RRset.key link.key a.response.answer = none := h.noAlias
      rw [heq] at hnone
      exact absurd (hnone.symm.trans hc) nofun
    exact (@Keyed.lookup_other _ _ _ _ [] _ _ _ hkey).trans hc
  obtain ⟨more,hmore,hagain⟩ := @followChain_again a.response.answer l _ q _ _ _ _ _ hchain
    (by rw [hsome]; rfl) hclass rfl hrecords haliases
  obtain rfl : more = a.cnames := hmore.symm.trans hcnames.symm
  obtain ⟨hshort,hlong⟩ := hagain 15 (min maxTtl ttl) [link]
  have hfirst : followChain l q maxChain q.name maxTtl [] =
      followChain l q 15 target (min maxTtl ttl) [link] := by
    have hnone : findRRset l q.name q.rdclass q.rdtype = none := by
      rw [hclass,hrecords]
      exact h.noRecords
    have hlink : findRRset l q.name q.rdclass RdataType.CNAME = some link := by
      rw [hclass]
      exact @Keyed.lookup_middle _ _ _ _ [] a.response.answer link
        (List.nodup_cons.mpr ⟨Keyed.lookup_none_iff.mp h.noAlias,h.distinct⟩)
    rw [maxChain,followChain,hnone]
    simp only [if_neg htype,hlink]
    rfl
  refine ⟨fun hlength => ?_,fun hlength => ?_⟩
  · obtain ⟨ttl',hok⟩ := hshort hlength
    have hwhole := hfirst.trans hok
    have httl : ttl' = min (chainTtl (link :: a.cnames)) rrset.ttl := by
      have h := @followChain_ttl l q maxChain q.name [] _ hwhole
      rw [hsome] at h
      exact h
    refine resolveChaining_ok.mpr ⟨hopcode,hqr,q,hquestion,_,?_,fun hnx => hrcode ⟨hnx.1,?_⟩,
      negativeTtl_some rfl⟩
    · rw [redirect_merged h,hwhole,httl,hsome,← hname]
      rfl
    · rw [hsome]
      rfl
  · refine resolveChaining_error hopcode hqr hquestion ?_
    rw [redirect_merged h]
    exact hfirst.trans (hlong hlength)

/-! ### The hook -/

section
variable {E W : Type} {codec : Codec W} {texts : NameTexts} {now : ℚ}
  {redirects : List (List Char × List Char)}
  {resolve : List Char → String → Except PyException Answer} {context : RequestContext E}
  {targetText : List Char}

/-- A redirect is configured for the request, which nothing has answered yet, and its target
resolves to records. -/
structure Applies (codec : Codec W) (texts : NameTexts) (redirects : List (List Char × List Char))
    (resolve : List Char → String → Except PyException Answer) (context : RequestContext E)
    (q : Question) (targetText : List Char) (target : Name) (a : Answer) (rrset : RRset) :
    Prop where
  unanswered : context.finalAnswer = none ∧ context.finalResponse = none
  query : context.request.flags.qr = false
  asked : context.request.question = [q]
  classIn : q.rdclass = RdataClass.IN
  typeNe : q.rdtype ≠ RdataType.CNAME
  configured : ∃ source, normalizeDomain texts.lower q.name.toText = .ok source ∧
    redirects.lookup source = some targetText
  resolves : resolve targetText (texts.rdatatypes.upper (texts.rdatatypes.toText q.rdtype)) = .ok a
  ownerRead : texts.nameFromText q.name.toText = .ok q.name
  targetRead : texts.cnameFromText (targetText ++ ['.']) = .ok target
  targeted : Targeted q target a rrset
  encodes : codec.Encodes
    (redirectResponse context.request q.name target (max rrset.ttl 1) a.response)

/-- The target's answer behind the alias. -/
def redirectedAnswer (now : ℚ) (request : Message) (q : Question) (target : Name) (a : Answer)
    (rrset : RRset) : Answer where
  qname := q.name
  rdtype := q.rdtype
  rdclass := q.rdclass
  response :=
    { (redirectResponse request q.name target (max rrset.ttl 1) a.response).merged with
      id := request.id }
  canonicalName := a.canonicalName
  cnames := redirectAlias q.name target (max rrset.ttl 1) :: a.cnames
  rrset := some rrset
  expiration :=
    now+(redirectedChain (redirectAlias q.name target (max rrset.ttl 1)) a rrset).minimumTtl

/-- What `on_request` comes to where the redirect applies. -/
theorem onRequest_applies (h : Applies codec texts redirects resolve context q targetText target a
    rrset) :
    RedirectPlugin.onRequest codec texts now redirects resolve context =
      (do
        let answer ← Exec.ofExcept (buildAnswerFromResponse codec now context.request
          (redirectResponse context.request q.name target (max rrset.ttl 1) a.response))
        Exec.modify fun context => { context with finalAnswer := some answer } :
        Exec PyException (RequestContext E) Unit) context := by
  have hq : firstQuestion context.request = .ok q := by
    rw [firstQuestion,h.asked]
  obtain ⟨source,hsource,hlookup⟩ := h.configured
  have hresponse : RedirectPlugin.buildRedirectResponse texts context.request targetText rrset
      a.response = .ok (redirectResponse context.request q.name target (max rrset.ttl 1)
        a.response) :=
    (buildRedirect_ok_iff hq h.ownerRead).mpr ⟨h.query,target,h.targetRead,rfl⟩
  unfold RedirectPlugin.onRequest
  rw [Exec.bind_ok (Exec.run_get context),h.unanswered.1,h.unanswered.2]
  simp only [Option.isSome_none,Bool.or_self,Bool.false_eq_true,if_false]
  rw [hq,Exec.bind_ok (Exec.run_ofExcept _ _),hsource,Exec.bind_ok (Exec.run_ofExcept _ _)]
  simp only [hlookup,h.resolves,h.targeted.records]
  rw [hresponse,Exec.bind_ok (Exec.run_ofExcept _ _)]

/-- A request that a redirect applies to is answered with the target's records at the end of the
target's chain and the target's section, with one alias more in front; with as many aliases as a
chain may have, the hook raises and answers nothing. -/
theorem redirect_answers (h : Applies codec texts redirects resolve context q targetText target a
    rrset) :
    (a.cnames.length < 15 → RedirectPlugin.onRequest codec texts now redirects resolve context =
      (.ok (),{ context with
        finalAnswer := some (redirectedAnswer now context.request q target a rrset) })) ∧
    (redirectedAnswer now context.request q target a rrset).response.answer =
      redirectAlias q.name target (max rrset.ttl 1) :: a.response.answer ∧
    (15 ≤ a.cnames.length → RedirectPlugin.onRequest codec texts now redirects resolve context =
      (.error .chainTooLong,context)) := by
  have hq : firstQuestion context.request = .ok q := by
    rw [firstQuestion,h.asked]
  obtain ⟨hshort,hlong⟩ :=
    redirect_chain h.targeted h.classIn h.typeNe h.asked (max rrset.ttl 1)
  refine ⟨fun hlength => (onRequest_applies h).trans (Exec.bind_ok ?_),
    redirect_merged h.targeted _,fun hlength => (onRequest_applies h).trans (Exec.bind_error ?_)⟩
  · have hmk := @mkAnswer_ok now q.name q.rdtype q.rdclass
      { (redirectResponse context.request q.name target (max rrset.ttl 1) a.response).merged with
        id := context.request.id } (redirectedAnswer now context.request q target a rrset) |>.mpr
      ⟨_,hshort hlength,rfl⟩
    rw [Exec.run_ofExcept,buildAnswerFromResponse,hq,cloneResponse_ok h.encodes]
    simp only [bind,Except.bind,hmk]
    rfl
  · have hchain := resolveChaining_id
      (redirectResponse context.request q.name target (max rrset.ttl 1) a.response).merged
      context.request.id
    rw [Exec.run_ofExcept,buildAnswerFromResponse,hq,cloneResponse_ok h.encodes]
    simp only [bind,Except.bind,mkAnswer,hchain,hlong hlength]

end

theorem redirect_answers_host :
    RedirectPlugin.onRequest directCodec hostTexts 0 [(['h'],['o'])] (fun _ _ => .ok otherAnswer)
      (askedContext hostQuestion) =
        (.ok (),{ askedContext hostQuestion with
          finalAnswer := some (redirectedAnswer 0 (askedContext hostQuestion).request hostQuestion
            otherName otherAnswer (addressOf otherName 1)) }) :=
  (redirect_answers
    { unanswered := ⟨rfl,rfl⟩
      query := rfl
      asked := rfl
      classIn := rfl
      typeNe := by decide
      configured := ⟨['h'],rfl,rfl⟩
      resolves := rfl
      ownerRead := rfl
      targetRead := rfl
      targeted :=
        { resolved := ⟨60,by decide⟩
          records := rfl
          question := rfl
          distinct := by decide
          noRecords := by decide
          noAlias := by decide }
      encodes := ⟨_,rfl⟩ }).1 (by decide)

end SmartDns
