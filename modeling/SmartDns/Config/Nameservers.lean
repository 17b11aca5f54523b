import SmartDns.Config.Fields
set_option autoImplicit false

/-!
The records of the configuration file for nameservers: one record for each protocol, which its
member `protocol` names.
-/

namespace SmartDns.ConfigFile

open Schema (Part)
open Schema.Part (literal)

variable (lib : Libraries)

inductive NameserverProtocol where
  | aiodns | do53 | do53Custom | doh | dohCustom | dohHttpx | dohAiohttp | dohCurlCffi | dot | doq
  | dnscrypt
  deriving DecidableEq, Repr

def NameserverProtocol.value : NameserverProtocol → String
  | .aiodns => "aiodns"
  | .do53 => "do53"
  | .do53Custom => "do53_custom"
  | .doh => "doh"
  | .dohCustom => "doh_custom"
  | .dohHttpx => "httpx"
  | .dohAiohttp => "aiohttp"
  | .dohCurlCffi => "curl"
  | .dot => "dot"
  | .doq => "doq"
  | .dnscrypt => "dnscrypt"

def NameserverProtocol.all : List NameserverProtocol :=
  [.aiodns,.do53,.do53Custom,.doh,.dohCustom,.dohHttpx,.dohAiohttp,.dohCurlCffi,.dot,.doq,.dnscrypt]

abbrev protocolField (protocol : NameserverProtocol) : Part PyException Unit :=
  literal "protocol" protocol.value

structure AiodnsNameserverConfig where
  name : String
  servers : Servers
  port : ServerPort
  tcp : Bool
  timeout : PosDouble

abbrev aiodnsPart : Part PyException AiodnsNameserverConfig :=
  ((((((Part.field "name" text).and
    (protocolField .aiodns)).and
    (.field "servers" (servers lib))).and
    (.field "port" (serverPort lib) (some ⟨53,rfl⟩))).and
    (.field "tcp" (bool lib) (some false))).and
    (.field "timeout" (posFloat lib) (some oneSecond))).convert
  (fun (((((name,_),servers),port),tcp),timeout) => ⟨name,servers,port,tcp,timeout⟩)
  (fun c => (((((c.name,()),c.servers),c.port),c.tcp),c.timeout))
  (by intro c; rfl) (by intro c; rfl)

structure Do53NameserverConfig where
  name : String
  address : String
  port : ServerPort

abbrev do53Part : Part PyException Do53NameserverConfig :=
  ((((Part.field "name" text).and
    (protocolField .do53)).and
    (.field "address" text)).and
    (.field "port" (serverPort lib) (some ⟨53,rfl⟩))).convert
  (fun (((name,_),address),port) => ⟨name,address,port⟩)
  (fun c => (((c.name,()),c.address),c.port)) (by intro c; rfl) (by intro c; rfl)

structure Do53CustomNameserverConfig where
  name : String
  address : String
  port : ServerPort
  useTricks : Bool

abbrev do53CustomPart : Part PyException Do53CustomNameserverConfig :=
  (((((Part.field "name" text).and
    (protocolField .do53Custom)).and
    (.field "address" text)).and
    (.field "port" (serverPort lib) (some ⟨53,rfl⟩))).and
    (.field "use_tricks" (bool lib) (some true))).convert
  (fun ((((name,_),address),port),useTricks) => ⟨name,address,port,useTricks⟩)
  (fun c => ((((c.name,()),c.address),c.port),c.useTricks)) (by intro c; rfl) (by intro c; rfl)

/-- Of a nameserver of protocol `doh` or `doh_custom`. -/
structure DoHNameserverConfig where
  name : String
  url : String
  bootstrapAddress : Option String
  verify : Verify
  wantGet : Bool
  httpVersion : HTTPVersionType

/-- The records of the two protocols differ in what they verify by default. -/
abbrev dohPartOf (protocol : NameserverProtocol) (verified : Bool) :
    Part PyException DoHNameserverConfig :=
  (((((((Part.field "name" text).and
    (protocolField protocol)).and
    (.field "url" text)).and
    (.field "bootstrap_address" optionalText (some none))).and
    (.field "verify" (verify lib) (some (.flag verified)))).and
    (.field "want_get" (bool lib) (some false))).and
    (.field "http_version" httpVersion (some .default))).convert
  (fun ((((((name,_),url),bootstrapAddress),verify),wantGet),httpVersion) =>
    ⟨name,url,bootstrapAddress,verify,wantGet,httpVersion⟩)
  (fun c => ((((((c.name,()),c.url),c.bootstrapAddress),c.verify),c.wantGet),c.httpVersion))
  (by intro c; rfl) (by intro c; rfl)

abbrev dohPart : Part PyException DoHNameserverConfig := dohPartOf lib .doh true

abbrev dohCustomPart : Part PyException DoHNameserverConfig := dohPartOf lib .dohCustom false

structure BaseHTTPClientDoHNameserverConfig where
  name : String
  url : String
  wantGet : Bool
  httpVersion : HTTPVersionType
  httpHost : Option String

abbrev baseHTTPClientPart : Part PyException BaseHTTPClientDoHNameserverConfig :=
  (((((Part.field "name" text).and
    (.field "url" text)).and
    (.field "want_get" (bool lib) (some false))).and
    (.field "http_version" httpVersion (some .default))).and
    (.field "http_host" optionalText (some none))).convert
  (fun ((((name,url),wantGet),httpVersion),httpHost) => ⟨name,url,wantGet,httpVersion,httpHost⟩)
  (fun c => ((((c.name,c.url),c.wantGet),c.httpVersion),c.httpHost))
  (by intro c; rfl) (by intro c; rfl)

structure BaseTLSHTTPClientDoHNameserverConfig extends BaseHTTPClientDoHNameserverConfig where
  verify : Verify
  serverHostname : Option String

abbrev baseTLSHTTPClientPart (protocol : NameserverProtocol) :
    Part PyException BaseTLSHTTPClientDoHNameserverConfig :=
  ((((baseHTTPClientPart lib).and
    (.field "verify" (verify lib) (some (.flag true)))).and
    (.field "server_hostname" optionalText (some none))).and
    (protocolField protocol)).convert
  (fun (((base,verify),serverHostname),_) => ⟨base,verify,serverHostname⟩)
  (fun c => (((c.toBaseHTTPClientDoHNameserverConfig,c.verify),c.serverHostname),()))
  (by intro c; rfl) (by intro c; rfl)

/-- `DoHHttpxNameserverConfig.validate_http_version`. -/
def refuseHttpx (c : BaseTLSHTTPClientDoHNameserverConfig) : Option String :=
  if c.httpVersion = .h1 ∨ c.httpVersion = .h3 then some "httpx 仅支持 default / h2"
  else if c.verify ≠ .flag true then some "httpx 不支持按请求配置 verify"
  else none

/-- `DoHAiohttpNameserverConfig.validate_http_version`. -/
def refuseAiohttp (c : BaseTLSHTTPClientDoHNameserverConfig) : Option String :=
  if c.httpVersion = .h2 ∨ c.httpVersion = .h3 then some "aiohttp 仅支持 default / h1" else none

abbrev DoHHttpxNameserverConfig :=
  { c : BaseTLSHTTPClientDoHNameserverConfig // refuseHttpx c = none }

abbrev DoHAiohttpNameserverConfig :=
  { c : BaseTLSHTTPClientDoHNameserverConfig // refuseAiohttp c = none }

abbrev dohHttpxPart : Part PyException DoHHttpxNameserverConfig :=
  (baseTLSHTTPClientPart lib .dohHttpx).restrict refuseHttpx

abbrev dohAiohttpPart : Part PyException DoHAiohttpNameserverConfig :=
  (baseTLSHTTPClientPart lib .dohAiohttp).restrict refuseAiohttp

structure DoHCurlCffiNameserverConfig extends BaseHTTPClientDoHNameserverConfig where
  verify : Bool

abbrev dohCurlCffiPart : Part PyException DoHCurlCffiNameserverConfig :=
  (((baseHTTPClientPart lib).and
    (protocolField .dohCurlCffi)).and
    (.field "verify" (bool lib) (some true))).convert
  (fun ((base,_),verify) => ⟨base,verify⟩)
  (fun c => ((c.toBaseHTTPClientDoHNameserverConfig,()),c.verify))
  (by intro c; rfl) (by intro c; rfl)

structure DoTNameserverConfig where
  name : String
  address : String
  port : ServerPort
  hostname : Option String
  verify : Verify

abbrev dotPart : Part PyException DoTNameserverConfig :=
  ((((((Part.field "name" text).and
    (protocolField .dot)).and
    (.field "address" text)).and
    (.field "port" (serverPort lib) (some ⟨853,rfl⟩))).and
    (.field "hostname" optionalText (some none))).and
    (.field "verify" (verify lib) (some (.flag true)))).convert
  (fun (((((name,_),address),port),hostname),verify) => ⟨name,address,port,hostname,verify⟩)
  (fun c => (((((c.name,()),c.address),c.port),c.hostname),c.verify))
  (by intro c; rfl) (by intro c; rfl)

structure DoQNameserverConfig where
  name : String
  address : String
  port : ServerPort
  serverHostname : Option String
  verify : Verify

abbrev doqPart : Part PyException DoQNameserverConfig :=
  ((((((Part.field "name" text).and
    (protocolField .doq)).and
    (.field "address" text)).and
    (.field "port" (serverPort lib) (some ⟨853,rfl⟩))).and
    (.field "server_hostname" optionalText (some none))).and
    (.field "verify" (verify lib) (some (.flag true)))).convert
  (fun (((((name,_),address),port),serverHostname),verify) =>
    ⟨name,address,port,serverHostname,verify⟩)
  (fun c => (((((c.name,()),c.address),c.port),c.serverHostname),c.verify))
  (by intro c; rfl) (by intro c; rfl)

structure DNSCryptNameserverConfig where
  name : String
  address : String
  providerName : String
  providerPk : String
  privateKey : Option String
  port : ServerPort
  certTimeout : PosDouble

abbrev dnscryptPart : Part PyException DNSCryptNameserverConfig :=
  ((((((((Part.field "name" text).and
    (protocolField .dnscrypt)).and
    (.field "address" text)).and
    (.field "provider_name" text)).and
    (.field "provider_pk" text)).and
    (.field "private_key" optionalText (some none))).and
    (.field "port" (serverPort lib) (some ⟨53,rfl⟩))).and
    (.field "cert_timeout" (posFloat lib) (some (seconds 5 (by norm_num))))).convert
  (fun (((((((name,_),address),providerName),providerPk),privateKey),port),certTimeout) =>
    ⟨name,address,providerName,providerPk,privateKey,port,certTimeout⟩)
  (fun c => (((((((c.name,()),c.address),c.providerName),c.providerPk),c.privateKey),c.port),
    c.certTimeout))
  (by intro c; rfl) (by intro c; rfl)

/-! ### The union -/

/-- The record of a protocol. -/
abbrev NameserverProtocol.Config : NameserverProtocol → Type
  | .aiodns => AiodnsNameserverConfig
  | .do53 => Do53NameserverConfig
  | .do53Custom => Do53CustomNameserverConfig
  | .doh => DoHNameserverConfig
  | .dohCustom => DoHNameserverConfig
  | .dohHttpx => DoHHttpxNameserverConfig
  | .dohAiohttp => DoHAiohttpNameserverConfig
  | .dohCurlCffi => DoHCurlCffiNameserverConfig
  | .dot => DoTNameserverConfig
  | .doq => DoQNameserverConfig
  | .dnscrypt => DNSCryptNameserverConfig

def nameserverPart : ∀ protocol, Part PyException (NameserverProtocol.Config protocol)
  | .aiodns => aiodnsPart lib
  | .do53 => do53Part lib
  | .do53Custom => do53CustomPart lib
  | .doh => dohPart lib
  | .dohCustom => dohCustomPart lib
  | .dohHttpx => dohHttpxPart lib
  | .dohAiohttp => dohAiohttpPart lib
  | .dohCurlCffi => dohCurlCffiPart lib
  | .dot => dotPart lib
  | .doq => doqPart lib
  | .dnscrypt => dnscryptPart lib

instance (protocol : NameserverProtocol) : (nameserverPart lib protocol).Discrete := by
  cases protocol <;> unfold nameserverPart <;> infer_instance

theorem nameserverPart_nodup (protocol : NameserverProtocol) :
    (nameserverPart lib protocol).names.Nodup := by
  cases protocol <;> exact of_decide_eq_true rfl

theorem nameserverPart_protocol (protocol : NameserverProtocol)
    (c : NameserverProtocol.Config protocol) :
    ("protocol",.str protocol.value) ∈ (nameserverPart lib protocol).write c := by
  cases protocol <;> simp [nameserverPart,Part.convert,Part.and,Part.field,Schema.lawful,Part.check]

abbrev NameserverConfig := Σ protocol, NameserverProtocol.Config protocol

def nameserver : Schema PyException NameserverConfig :=
  .tagged "protocol" NameserverProtocol.value NameserverProtocol.all (nameserverPart lib)
    (nameserverPart_nodup lib) (by intro i; cases i <;> rfl) (nameserverPart_protocol lib)

instance : (nameserver lib).Discrete := by unfold nameserver; infer_instance

def nameserverName : NameserverConfig → String
  | ⟨.aiodns,c⟩ => AiodnsNameserverConfig.name c
  | ⟨.do53,c⟩ => Do53NameserverConfig.name c
  | ⟨.do53Custom,c⟩ => Do53CustomNameserverConfig.name c
  | ⟨.doh,c⟩ => DoHNameserverConfig.name c
  | ⟨.dohCustom,c⟩ => DoHNameserverConfig.name c
  | ⟨.dohHttpx,c⟩ => (Subtype.val c).name
  | ⟨.dohAiohttp,c⟩ => (Subtype.val c).name
  | ⟨.dohCurlCffi,c⟩ => (DoHCurlCffiNameserverConfig.toBaseHTTPClientDoHNameserverConfig c).name
  | ⟨.dot,c⟩ => DoTNameserverConfig.name c
  | ⟨.doq,c⟩ => DoQNameserverConfig.name c
  | ⟨.dnscrypt,c⟩ => DNSCryptNameserverConfig.name c

def nameserverTimeouts : NameserverConfig → List Double
  | ⟨.aiodns,c⟩ => [(AiodnsNameserverConfig.timeout c).val]
  | ⟨.dnscrypt,c⟩ => [(DNSCryptNameserverConfig.certTimeout c).val]
  | _ => []

theorem aiodns_stable_iff (c : AiodnsNameserverConfig) :
    (aiodnsPart lib).Stable c ↔ lib.KeepsFloat c.timeout.val :=
  and_iff_right ⟨⟨⟨⟨trivial,trivial⟩,trivial⟩,trivial⟩,trivial⟩

theorem dnscrypt_stable_iff (c : DNSCryptNameserverConfig) :
    (dnscryptPart lib).Stable c ↔ lib.KeepsFloat c.certTimeout.val :=
  and_iff_right ⟨⟨⟨⟨⟨⟨trivial,trivial⟩,trivial⟩,trivial⟩,trivial⟩,fun _ _ => trivial⟩,trivial⟩

theorem nameserverPart_kept {protocol : NameserverProtocol} (haiodns : protocol ≠ .aiodns)
    (hdnscrypt : protocol ≠ .dnscrypt) : (nameserverPart lib protocol).Kept := by
  cases protocol with
  | aiodns => contradiction
  | dnscrypt => contradiction
  | _ =>
    unfold nameserverPart
    infer_instance

theorem nameserver_stable_iff (c : NameserverConfig) :
    (nameserver lib).Stable c ↔ ∀ x ∈ nameserverTimeouts c, lib.KeepsFloat x := by
  have hpart : (nameserver lib).Stable c ↔ (nameserverPart lib c.1).Stable c.2 := Iff.rfl
  obtain ⟨protocol,c⟩ := c
  rw [hpart]
  cases protocol with
  | aiodns => exact (aiodns_stable_iff lib c).trans (by simp [nameserverTimeouts])
  | dnscrypt => exact (dnscrypt_stable_iff lib c).trans (by simp [nameserverTimeouts])
  | _ =>
    exact iff_of_true ((nameserverPart_kept lib (by decide) (by decide)).stable c)
      (by simp [nameserverTimeouts])

end SmartDns.ConfigFile
