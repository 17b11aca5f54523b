import Mathlib.Algebra.Order.Monoid.WithTop
import Mathlib.Algebra.Order.Ring.Rat
import SmartDns.Core.PyText
import SmartDns.Dns.RecordText
set_option autoImplicit false

/-!
`speedtest_plugin`: the addresses of the upstreams' results are measured as they arrive, and the
answer gets the fast ones. Times are exact, and `inf` marks an address that is not to be measured.
-/

namespace SmartDns

namespace SpeedTest

/-- `record.address`, a text. -/
abbrev Ip := List Char

/-- Milliseconds, or `inf`. -/
abbrev Ms := WithTop ℚ

structure SpeedTestFallbackRuleConfig where
  matchTags : List String
  excludeTags : List String := []
  ipv4Addresses : List Ip := []
  ipv6Addresses : List Ip := []

/-- What the plugin's two hooks read of `SpeedTestPluginConfig`. -/
structure SpeedTestPluginConfig where
  responseIpLimit : ℕ := 2
  responseTtlSeconds : ℕ := 60
  rttToleranceMs : Ms := (50 : ℚ)
  rttGapThresholdMs : Ms := (20 : ℚ)
  skipTags : List String := []
  noSpeedtestTags : List String := []
  fallbackRules : List SpeedTestFallbackRuleConfig := []
  limit : 1 ≤ responseIpLimit := by decide
  tolerance : 0 ≤ rttToleranceMs := by decide
  gapThreshold : 0 ≤ rttGapThresholdMs := by decide

structure IpRttResult where
  ip : Ip
  bestMs : Option Ms := none
  deriving DecidableEq

structure SpeedTestContext where
  ipRttResults : List IpRttResult := []
  seenIps : Finset Ip := ∅
  deriving DecidableEq

namespace SpeedTestContext

/-- The addresses that nobody has reserved yet. -/
def newIps (c : SpeedTestContext) (ips : List Ip) : List Ip :=
  (ips.foldl Keyed.insertNew []).filter fun ip => ip ∉ c.seenIps

def reserveIps (c : SpeedTestContext) (ips : List Ip) : SpeedTestContext :=
  { c with seenIps := c.seenIps ∪ (c.newIps ips).toFinset }

def addResults (c : SpeedTestContext) (results : List IpRttResult) : SpeedTestContext :=
  { c with ipRttResults := c.ipRttResults ++ results }

end SpeedTestContext

variable (texts : RecordText) (config : SpeedTestPluginConfig)

def extractUniqueIps (answer : Answer) : List Ip :=
  if answer.rdtype ∉ addressTypes then []
  else
    match answer.rrset with
    | none => []
    | some rrset => (rrset.items.filterMap texts.address).foldl Keyed.insertNew []

def makeInfResults (ips : List Ip) : List IpRttResult :=
  ips.map fun ip => { ip, bestMs := some ⊤ }

/-- The results of those addresses whose measurement does not raise. -/
def successfulResults (measure : Ip → Except PyException (Option Ms)) (ips : List Ip) :
    List IpRttResult :=
  ips.filterMap fun ip =>
    match measure ip with
    | .ok bestMs => some { ip, bestMs }
    | .error _ => none

/-- `_measure_new_ips` where nothing runs beside it. -/
def measureNewIps (measure : Ip → Except PyException (Option Ms)) (c : SpeedTestContext)
    (ips : List Ip) : SpeedTestContext :=
  let candidateIps := c.newIps ips
  (c.reserveIps ips).addResults (successfulResults measure candidateIps)

/-! ### Candidates -/

/-- The locals of `_collect_candidate_ips`. -/
structure Collecting where
  candidates : List Ip := []
  infResults : List IpRttResult := []

def Collecting.addIp (markInf : Bool) (s : Collecting) (ip : Ip) : Collecting :=
  if ip ∈ s.candidates then s
  else
    { candidates := s.candidates ++ [ip]
      infResults := if markInf then s.infResults ++ [{ ip, bestMs := some ⊤ }] else s.infResults }

/-- `add_answer_ips`. -/
def Collecting.addAnswerIps (s : Collecting) (item : Option Answer) (markInf : Bool) : Collecting :=
  match item with
  | none => s
  | some answer => (extractUniqueIps texts answer).foldl (Collecting.addIp markInf) s

/-- By duration, and by name where that is equal. -/
def byDuration (a b : UpstreamResult) : Bool :=
  a.durationMs < b.durationMs ∨ a.durationMs = b.durationMs ∧ a.upstreamName ≤ b.upstreamName

def collectCandidateIps (upstreamResults : List UpstreamResult) (answer : Answer) : Collecting :=
  let s := Collecting.addAnswerIps texts {} (some answer) false
  match upstreamResults.getLast? with
  | none => s
  | some finalResult =>
    (finalResult.collectedResults.mergeSort byDuration).foldl (fun s result =>
      s.addAnswerIps texts result.answer (hasAnyTag result.tags config.noSpeedtestTags)) s

/-! ### The choice -/

/-- The difference of two times, as floats have it. -/
inductive Difference where
  | finite (ms : ℚ)
  | inf
  | negInf
  | nan

def Ms.sub : Ms → Ms → Difference
  | some a, some b => .finite (a-b)
  | none, some _ => .inf
  | some _, none => .negInf
  | none, none => .nan

/-- `difference <= ms`; NaN is neither less nor greater than anything. -/
def Difference.le : Difference → Ms → Bool
  | .finite a, some b => a ≤ b
  | .finite _, none => true
  | .inf, some _ => false
  | .inf, none => true
  | .negInf, _ => true
  | .nan, _ => false

/-- `difference > ms`. -/
def Difference.gt : Difference → Ms → Bool
  | .finite a, some b => b < a
  | .finite _, none => false
  | .inf, some _ => true
  | .inf, none => false
  | .negInf, _ => false
  | .nan, _ => false

/-- An address with its best time, an item of `measured_results`. -/
abbrev Item := Ip × Ms

def measuredItem (candidateIps : List Ip) (item : IpRttResult) : Option Item :=
  match item.bestMs with
  | some ms => if item.ip ∈ candidateIps then some (item.ip,ms) else none
  | none => none

/-- The dictionary, where a later result takes the place of an earlier one. -/
def measuredResults (candidateIps : List Ip) (results : List IpRttResult) : List Item :=
  Keyed.gather Prod.fst (fun old new => (old.1,new.2))
    (results.filterMap (measuredItem candidateIps))

/-- By time, and by place among the candidates where that is equal. -/
def byTime (candidateIps : List Ip) (a b : Item) : Bool :=
  a.2 < b.2 ∨ a.2 = b.2 ∧ candidateIps.idxOf a.1 ≤ candidateIps.idxOf b.1

/-- The loop that keeps what is within the tolerance of the first. -/
def filterItems (tolerance : Ms) : Option Ms → List Item → List Item
  | _, [] => []
  | bestMs, item :: rest =>
    let best := bestMs.getD item.2
    if (Ms.sub item.2 best).le tolerance then item :: filterItems tolerance (some best) rest else []

/-- The loop that ends at the first gap. -/
def truncateItems (threshold : Ms) : Option Item → List Item → List Item
  | _, [] => []
  | none, item :: rest => item :: truncateItems threshold (some item) rest
  | some prev, item :: rest =>
    if (Ms.sub item.2 prev.2).gt threshold then []
    else item :: truncateItems threshold (some item) rest

/-- `sorted_ips`, for candidates that are all different. -/
def selectedIps (candidateIps : List Ip) (results : List IpRttResult) : List Ip :=
  let sortedItems := (measuredResults candidateIps results).mergeSort (byTime candidateIps)
  let filteredItems := filterItems config.rttToleranceMs none sortedItems
  let filteredItems := if filteredItems = [] then sortedItems else filteredItems
  let truncatedItems := truncateItems config.rttGapThresholdMs none filteredItems
  (truncatedItems.map Prod.fst).take config.responseIpLimit

def replaceAnswerIps (now : ℚ) (ips : List Ip) : Exec PyException Answer Unit := do
  let answer ← Exec.get
  let (rrsetName,ttl) := match answer.rrset with
    | none => (answer.canonicalName,config.responseTtlSeconds)
    | some rrset => (rrset.name,max rrset.ttl config.responseTtlSeconds)
  let rrset ← Exec.ofExcept
    (RRset.fromTextList texts rrsetName ttl answer.rdclass answer.rdtype ips)
  Exec.modify fun answer => { answer with rrset := some rrset }
  syncAnswerRrsetToResponse
  Exec.modify fun answer => { answer with expiration := now+ttl }

def selectFallbackIps (tags : Finset String) (rdtype : RdataType) : List Ip :=
  let fallback := config.fallbackRules.find? fun rule =>
    !hasAnyTag tags rule.excludeTags && hasAnyTag tags rule.matchTags &&
      (if rdtype = RdataType.A then rule.ipv4Addresses else rule.ipv6Addresses) ≠ []
  match fallback with
  | none => []
  | some rule => if rdtype = RdataType.A then rule.ipv4Addresses else rule.ipv6Addresses

/-- What `on_response` does to the answer once everything is measured. -/
def applyResults (now : ℚ) (tags : Finset String) (candidateIps : List Ip)
    (results : List IpRttResult) : Exec PyException Answer Unit := do
  let answer ← Exec.get
  if measuredResults candidateIps results ≠ [] then
    let sortedIps := selectedIps config candidateIps results
    if sortedIps ≠ extractUniqueIps texts answer then replaceAnswerIps texts config now sortedIps
    else pure ()
  else
    let fallbackIps := selectFallbackIps config tags answer.rdtype
    if fallbackIps ≠ [] then replaceAnswerIps texts config now fallbackIps else pure ()

/-- The context that `on_response` makes its choice from, and the candidates. -/
def measuredContext (measure : Ip → Except PyException (Option Ms))
    (upstreamResults : List UpstreamResult) (answer : Answer) (c : SpeedTestContext) :
    List Ip × SpeedTestContext :=
  let collected := collectCandidateIps texts config upstreamResults answer
  (collected.candidates,
    measureNewIps measure (c.addResults collected.infResults) collected.candidates)

/-- `on_response`, over the final answer it edits, for a request of `question`. -/
def onResponse (measure : Ip → Except PyException (Option Ms)) (now : ℚ) (question : Question)
    (tags : Finset String) (upstreamResults : List UpstreamResult) (c : SpeedTestContext) :
    Exec PyException Answer Unit := do
  if question.rdtype ∉ addressTypes then pure ()
  else if hasAnyTag tags config.skipTags then pure ()
  else
    let answer ← Exec.get
    if answer.rdtype ∈ addressTypes ∧ answer.response.rcode = Rcode.NOERROR then
      let measured := measuredContext texts config measure upstreamResults answer c
      applyResults texts config now tags measured.1 measured.2.ipRttResults
    else pure ()

end SpeedTest

end SmartDns
