import Rocket.NetAddr
import Rocket.RpcChannel

set_option autoImplicit false

namespace Rocket

open Word32

-- What Config asks TinyXML for: the children of one name, through which
-- FirstChildElement and NextSiblingElement go, and the text of an element.
structure XmlReader (ν : Type) where
  childElements : ν → Bytes → List ν
  getText : ν → Option Bytes

structure Rpcstub where
  name : Bytes
  addr : Option IPNetAddr := none
  timeout : Int := 2000
deriving DecidableEq, Repr

abbrev StubMap := Bytes → Option Rpcstub

structure Config where
  logLevel : Bytes := []
  logFileName : Bytes := []
  logFilePath : Bytes := []
  logMaxFileSize : Int := 0
  logFlushInterval : Int := 0
  port : Int := 0
  ioThreads : Int := 0
  rpcStubs : StubMap := fun _ => none

-- std::map::insert keeps the entry that is there.
def insertStub (stubs : StubMap) (stub : Rpcstub) : StubMap :=
  fun name => if name = stub.name then (stubs name).or (some stub) else stubs name

-- The argument of setGlobalConfig, and what LoadFile makes of it.
inductive ConfigFile (ν : Type) where
  | absent
  | unreadable
  | loaded (document : ν)

section Xml

variable {ν : Type} (xml : XmlReader ν) (inetAddr : Bytes → UInt32)

def XmlReader.firstChildElement (node : ν) (name : Bytes) : Option ν := (xml.childElements node name).head?

-- READ_STR_FROM_XML_NODE, and the same reads without a check in the loop over
-- the stubs: without a value the constructor exits or uses a null pointer.
def readStr (parent : ν) (name : Bytes) : Option Bytes := (xml.firstChildElement parent name).bind xml.getText

-- Without a value a number could not be read.
def readStub (node : ν) : Option Rpcstub := do
  let name ← readStr xml node (text "name")
  let timeout ← (readStr xml node (text "timeout")).bind stoi
  let ip ← readStr xml node (text "ip")
  let port ← (readStr xml node (text "port")).bind stoi
  let valid ← checkValid inetAddr (ip ++ text ":" ++ text (toString port))
  some { name := name, addr := if valid = true then some (newIPNetAddr inetAddr ip (toUint16 port)) else none, timeout := timeout }

def insertStubs (stubs : StubMap) : List ν → Option StubMap
  | [] => some stubs
  | node :: nodes => do
      let stub ← readStub xml inetAddr node
      insertStubs (insertStub stubs stub) nodes

def stubNodes (document : ν) : List ν :=
  match (xml.firstChildElement document (text "root")).bind fun root => xml.firstChildElement root (text "stubs") with
  | none => []
  | some stubs => xml.childElements stubs (text "rpc_server")

def readLogNode (log : ν) (config : Config) : Option Config := do
  let logLevel ← readStr xml log (text "log_level")
  let logFileName ← readStr xml log (text "log_file_name")
  let logFilePath ← readStr xml log (text "log_file_path")
  let logMaxFileSizeStr ← readStr xml log (text "log_max_file_size")
  let logFlushIntervalStr ← readStr xml log (text "log_flush_interval")
  let logMaxFileSize ← stoi logMaxFileSizeStr
  let logFlushInterval ← stoi logFlushIntervalStr
  some { config with
    logLevel := logLevel
    logFileName := logFileName
    logFilePath := logFilePath
    logMaxFileSize := logMaxFileSize
    logFlushInterval := logFlushInterval }

def readServerNode (server : ν) (config : Config) : Option Config := do
  let portStr ← readStr xml server (text "port")
  let ioThreadsStr ← readStr xml server (text "io_threads")
  let port ← stoi portStr
  let ioThreads ← stoi ioThreadsStr
  some { config with port := port, ioThreads := ioThreads }

def configOfDocument (document : ν) : Option Config := do
  let root ← xml.firstChildElement document (text "root")
  let log ← xml.firstChildElement root (text "log")
  let server ← xml.firstChildElement root (text "server")
  let logged ← readLogNode xml log {}
  let served ← readServerNode xml server logged
  let rpcStubs ← insertStubs xml inetAddr (fun _ => none) (stubNodes xml document)
  some { served with rpcStubs := rpcStubs }

def newConfig : ConfigFile ν → Option Config
  | .absent => some { logLevel := text "DEBUG" }
  | .unreadable => none
  | .loaded document => configOfDocument xml inetAddr document

def ConfigFile.stubNodes : ConfigFile ν → List ν
  | .loaded document => Rocket.stubNodes xml document
  | _ => []

end Xml

inductive LogLevel where
  | unknown
  | debug
  | info
  | error
deriving DecidableEq, Repr

-- INFOLOG evaluates its arguments only then.
def LogLevel.logsInfo : LogLevel → Bool
  | .error => false
  | _ => true

inductive LookupEnd where
  | returned (addr : Option IPNetAddr)
  | threw
  | nullDereferenced
deriving DecidableEq, Repr

def findAddr (inetAddr : Bytes → UInt32) (config : Config) (level : LogLevel) (str : Bytes) : LookupEnd :=
  match checkValid inetAddr str with
  | none => .threw
  | some true => .returned (some (parseIPNetAddr inetAddr str))
  | some false =>
      match config.rpcStubs str with
      | none => .returned none
      | some stub =>
          if level.logsInfo = true ∧ stub.addr = none then .nullDereferenced else .returned stub.addr

section Channel

variable {ρ : Type}

-- What the constructor of TcpClient reads of the address.
def getFamily (remoteAddr : Option IPNetAddr) : Option Int := remoteAddr.map fun _ => 2

-- NEWRPCCHANNEL and Init. Without a value the constructor has read through a
-- null pointer.
def newRpcChannel (remoteAddr : Option IPNetAddr) (controllers : Nat → RpcController) (own argument : Nat) (response : ρ) :
    Option (Channel ρ) :=
  (getFamily remoteAddr).map fun _ => initialised remoteAddr.isSome controllers own argument response

def ReportsInitFailed (channel : Channel ρ) : Prop :=
  ∀ arguments : CallArguments, arguments.present = true → ∃ later, callMethod channel arguments = some later ∧
    (later.controllers later.argument).errorCode = ERROR_RPC_CHANNEL_INIT_FAILED

end Channel

def FirstConfigured (stubs : List Rpcstub) (name : Bytes) (stub : Rpcstub) : Prop :=
  ∃ before after, stubs = before ++ stub :: after ∧ stub.name = name ∧ ∀ other ∈ before, other.name ≠ name

structure ValidAddr (inetAddr : Bytes → UInt32) (addr : IPNetAddr) : Prop where
  printed : addr.checkValid inetAddr = some true
  resolved : addr.sinAddr ≠ INADDR_NONE

structure LooksUpCleanly {ρ : Type} (inetAddr : Bytes → UInt32) (config : Config) (stubs : List Rpcstub) (level : LogLevel)
    (str : Bytes) (response : ρ) : Prop where
  returns : ∃ addr, findAddr inetAddr config level str = .returned addr
  valid : ∀ addr, findAddr inetAddr config level str = .returned (some addr) → ValidAddr inetAddr addr ∧
    ((checkValid inetAddr str = some true ∧ addr = parseIPNetAddr inetAddr str) ∨
      ∃ stub, FirstConfigured stubs str stub ∧ stub.addr = some addr)
  reports : findAddr inetAddr config level str = .returned none → ∀ controllers own argument,
    ∃ channel, newRpcChannel none controllers own argument response = some channel ∧ ReportsInitFailed channel

-- The address is written in the string or configured under it.
def HasAddress (inetAddr : Bytes → UInt32) (stubs : List Rpcstub) (str : Bytes) : Prop :=
  checkValid inetAddr str = some true ∨
    (checkValid inetAddr str = some false ∧
      ∃ stub addr, FirstConfigured stubs str stub ∧ stub.addr = some addr ∧ ValidAddr inetAddr addr)

theorem first_configured_iff (stubs : List Rpcstub) (name : Bytes) (stub : Rpcstub) :
    stubs.find? (fun stub => decide (stub.name = name)) = some stub ↔ FirstConfigured stubs name stub := by
  rw [List.find?_eq_some_iff_append, FirstConfigured]
  constructor
  · rintro ⟨named, before, after, shape, others⟩
    exact ⟨before, after, shape, of_decide_eq_true named, fun other member => by simpa using others other member⟩
  · rintro ⟨before, after, shape, named, others⟩
    exact ⟨decide_eq_true named, before, after, shape, fun other member => by simpa using others other member⟩

section Xml

variable {ν : Type} (xml : XmlReader ν) (inetAddr : Bytes → UInt32)

theorem insert_stubs_first (map last : StubMap) (nodes : List ν) (inserted : insertStubs xml inetAddr map nodes = some last) :
    ∃ stubs, nodes.mapM (readStub xml inetAddr) = some stubs ∧
      ∀ name, last name = (map name).or (stubs.find? fun stub => decide (stub.name = name)) := by
  induction nodes generalizing map with
  | nil =>
      cases inserted
      exact ⟨[], rfl, fun name => by simp⟩
  | cons node nodes ih =>
      simp only [insertStubs, Option.bind_eq_bind, Option.bind_eq_some_iff] at inserted
      obtain ⟨stub, read, rest⟩ := inserted
      obtain ⟨stubs, others, looked⟩ := ih (insertStub map stub) rest
      refine ⟨stub :: stubs, by simp [read, others], ?_⟩
      intro name
      rw [looked, insertStub, List.find?_cons]
      by_cases same : name = stub.name
      · rw [if_pos same, decide_eq_true same.symm, Option.or_assoc, Option.some_or]
      · rw [if_neg same, decide_eq_false (Ne.symm same)]

theorem new_config_stubs (source : ConfigFile ν) (config : Config) (accepted : newConfig xml inetAddr source = some config) :
    ∃ stubs, (source.stubNodes xml).mapM (readStub xml inetAddr) = some stubs ∧
      ∀ name stub, config.rpcStubs name = some stub ↔ FirstConfigured stubs name stub := by
  cases source with
  | absent =>
      cases accepted
      exact ⟨[], rfl, fun name stub => by simp [FirstConfigured]⟩
  | unreadable => cases accepted
  | loaded document =>
      simp only [newConfig, configOfDocument, Option.bind_eq_bind, Option.bind_eq_some_iff] at accepted
      obtain ⟨root, _, log, _, server, _, logged, _, served, _, rpcStubs, inserted, same⟩ := accepted
      cases same
      obtain ⟨stubs, read, looked⟩ := insert_stubs_first xml inetAddr _ _ _ inserted
      refine ⟨stubs, read, fun name stub => ?_⟩
      change rpcStubs name = some stub ↔ _
      rw [looked, Option.none_or]
      exact first_configured_iff stubs name stub

end Xml

theorem written_addr_valid (inetAddr : Bytes → UInt32) (str : Bytes) (valid : checkValid inetAddr str = some true) :
    ValidAddr inetAddr (parseIPNetAddr inetAddr str) := by
  obtain ⟨ip, port, number, splits, ipPresent, _, read, lower, upper, accepted⟩ :=
    (check_valid_true_iff inetAddr str).mp valid
  rw [parse_split inetAddr str ip port splits, atoi_of_stoi port number read, to_uint16_small number lower upper]
  exact ⟨(address_again inetAddr ip number.toNat ipPresent splits.2 (by omega) accepted).1, accepted⟩

-- A configured ip with a colon can pass CheckValid with another split.
theorem configured_addr_valid {ν : Type} (xml : XmlReader ν) (inetAddr : Bytes → UInt32) (node : ν) (stub : Rpcstub)
    (addr : IPNetAddr) (read : readStub xml inetAddr node = some stub) (stored : stub.addr = some addr)
    (noColon : 0x3A ∉ addr.ip) : ValidAddr inetAddr addr := by
  simp only [readStub, Option.bind_eq_bind, Option.bind_eq_some_iff] at read
  obtain ⟨name, _, timeout, _, ip, _, port, _, valid, checked, same⟩ := read
  cases same
  cases valid with
  | false => cases stored
  | true =>
      cases stored
      have splits : SplitsAt (ip ++ text ":" ++ text (toString port)) ip (text (toString port)) :=
        ⟨by rw [List.append_assoc]; rfl, noColon⟩
      obtain ⟨otherIp, otherPort, number, otherSplits, ipPresent, _, _, _, _, accepted⟩ :=
        (check_valid_true_iff inetAddr _).mp checked
      obtain ⟨rfl, rfl⟩ := splits_at_unique _ ip otherIp _ otherPort splits otherSplits
      have small : toUint16 port ≤ 65535 := by
        rw [toUint16]
        omega
      exact ⟨(address_again inetAddr ip (toUint16 port) ipPresent noColon small accepted).1, accepted⟩

section Channel

variable {ρ : Type}

theorem null_addr_crashes (controllers : Nat → RpcController) (own argument : Nat) (response : ρ) :
    newRpcChannel none controllers own argument response = none := rfl

theorem fail_call_reports (ch : Channel ρ) (ref : Nat) (errorCode : Int) (errorInfo : Bytes) (init : ch.isInit = true) :
    ∃ later, failCall ch ref errorCode errorInfo = some later ∧ (later.controllers ref).errorCode = errorCode ∧
      later.argument = ch.argument := by
  let failed := { modifyController ch ref (setError errorCode errorInfo) with outcome := true }
  have reported : (failed.controllers ref).errorCode = errorCode := by
    simp only [failed, modifyController, Function.update_self, setError]
  have started : ¬ failed.isInit = false := by simp [failed, modifyController, init]
  rw [failCall, callBack, if_neg started]
  split
  · exact ⟨failed, rfl, reported, rfl⟩
  · next unfinished =>
      have different : ref ≠ failed.own := by
        intro same
        apply unfinished
        change (failed.controllers failed.own).isFinished = true
        rw [← same]
        simp only [failed, modifyController, Function.update_self, setError]
      split
      · refine ⟨_, rfl, ?_, rfl⟩
        change (Function.update failed.controllers failed.own _ ref).errorCode = errorCode
        rw [Function.update_of_ne different]
        exact reported
      · exact ⟨failed, rfl, reported, rfl⟩

-- CallMethod has the test that the constructor lacks.
theorem null_addr_reported (controllers : Nat → RpcController) (own argument : Nat) (response : ρ) :
    ReportsInitFailed (initialised false controllers own argument response) := by
  intro arguments present
  have unknown : (initialised false controllers own argument response).remoteAddr = false := rfl
  rw [callMethod, if_neg (by simp [present]), if_pos unknown]
  obtain ⟨later, failed, reported, same⟩ := fail_call_reports
    { initialised false controllers own argument response with stage := .ended } argument ERROR_RPC_CHANNEL_INIT_FAILED
    (text "failed get peer addr") rfl
  exact ⟨later, failed, by rw [same]; exact reported⟩

theorem find_addr_null_unclean (inetAddr : Bytes → UInt32) (config : Config) (stubs : List Rpcstub) (level : LogLevel)
    (str : Bytes) (response : ρ) (null : findAddr inetAddr config level str = .returned none) :
    ¬ LooksUpCleanly inetAddr config stubs level str response := by
  intro clean
  obtain ⟨channel, constructed, _⟩ := clean.reports null (fun _ => {}) 0 0
  rw [null_addr_crashes] at constructed
  cases constructed

theorem looks_up_cleanly_iff (inetAddr : Bytes → UInt32) (config : Config) (stubs : List Rpcstub) (level : LogLevel)
    (str : Bytes) (response : ρ)
    (configured : ∀ name stub, config.rpcStubs name = some stub ↔ FirstConfigured stubs name stub) :
    LooksUpCleanly inetAddr config stubs level str response ↔ HasAddress inetAddr stubs str := by
  constructor
  · intro clean
    obtain ⟨addr, returned⟩ := clean.returns
    cases addr with
    | none => exact absurd clean (find_addr_null_unclean inetAddr config stubs level str response returned)
    | some addr =>
        obtain ⟨valid, origin⟩ := clean.valid addr returned
        rcases origin with ⟨written, _⟩ | ⟨stub, first, stored⟩
        · exact Or.inl written
        · cases checked : checkValid inetAddr str with
          | none =>
              rw [findAddr, checked] at returned
              cases returned
          | some written =>
              cases written with
              | true => exact Or.inl checked
              | false => exact Or.inr ⟨checked, stub, addr, first, stored, valid⟩
  · rintro (written | ⟨notWritten, stub, addr, first, stored, valid⟩)
    · have found : findAddr inetAddr config level str = .returned (some (parseIPNetAddr inetAddr str)) := by
        rw [findAddr, written]
      refine ⟨⟨_, found⟩, fun addr returned => ?_, fun returned => ?_⟩
      · cases found.symm.trans returned
        exact ⟨written_addr_valid inetAddr str written, Or.inl ⟨written, rfl⟩⟩
      · cases found.symm.trans returned
    · have found : findAddr inetAddr config level str = .returned (some addr) := by
        simp only [findAddr, notWritten, (configured str stub).mpr first, stored]
        rw [if_neg (by simp)]
      refine ⟨⟨_, found⟩, fun other returned => ?_, fun returned => ?_⟩
      · cases found.symm.trans returned
        exact ⟨valid, Or.inr ⟨stub, first, stored⟩⟩
      · cases found.symm.trans returned

theorem find_addr_clean_iff {ν : Type} (xml : XmlReader ν) (inetAddr : Bytes → UInt32) (source : ConfigFile ν)
    (config : Config) (accepted : newConfig xml inetAddr source = some config) :
    ∃ stubs, (source.stubNodes xml).mapM (readStub xml inetAddr) = some stubs ∧
      (∀ (level : LogLevel) (str : Bytes) (response : ρ),
        LooksUpCleanly inetAddr config stubs level str response ↔ HasAddress inetAddr stubs str) ∧
      ∀ (controllers : Nat → RpcController) (own argument : Nat) (response : ρ),
        newRpcChannel none controllers own argument response = none ∧
          ReportsInitFailed (initialised false controllers own argument response) := by
  obtain ⟨stubs, read, configured⟩ := new_config_stubs xml inetAddr source config accepted
  exact ⟨stubs, read,
    fun level str response => looks_up_cleanly_iff inetAddr config stubs level str response configured,
    fun controllers own argument response => ⟨rfl, null_addr_reported controllers own argument response⟩⟩

end Channel

-- A document as TinyXML has it in memory, and its two readers.
inductive XmlNode where
  | element (name : Bytes) (children : List XmlNode)
  | text (value : Bytes)

def XmlNode.isElement (name : Bytes) : XmlNode → Bool
  | .element other _ => decide (other = name)
  | .text _ => false

def XmlNode.children : XmlNode → List XmlNode
  | .element _ children => children
  | .text _ => []

def xmlNodeReader : XmlReader XmlNode where
  childElements node name := node.children.filter (XmlNode.isElement name)
  getText node :=
    match node.children with
    | .text value :: _ => some value
    | _ => none

def textElement (name value : String) : XmlNode := .element (text name) [.text (text value)]

def orderStubDocument (port : String) : XmlNode :=
  .element [] [.element (text "root") [
    .element (text "log") [textElement "log_level" "INFO", textElement "log_file_name" "order",
      textElement "log_file_path" "../log", textElement "log_max_file_size" "1000", textElement "log_flush_interval" "500"],
    .element (text "server") [textElement "port" "12345", textElement "io_threads" "4"],
    .element (text "stubs") [.element (text "rpc_server") [textElement "name" "order", textElement "timeout" "500",
      textElement "ip" "127.0.0.1", textElement "port" port]]]]

def loopbackOnly (ip : Bytes) : UInt32 := if ip = text "127.0.0.1" then 0x0100007F else INADDR_NONE

theorem find_addr_clean_order :
    ∃ config stubs, newConfig xmlNodeReader loopbackOnly (.loaded (orderStubDocument "8080")) = some config ∧
      LooksUpCleanly loopbackOnly config stubs .info (text "order") () := by
  have readable : (newConfig xmlNodeReader loopbackOnly (.loaded (orderStubDocument "8080"))).isSome = true := by decide
  obtain ⟨config, accepted⟩ := Option.isSome_iff_exists.mp readable
  obtain ⟨stubs, read, clean, _⟩ := find_addr_clean_iff xmlNodeReader loopbackOnly _ config accepted
  refine ⟨config, stubs, accepted, (clean .info (text "order") ()).mpr (Or.inr ⟨by decide, ?_⟩)⟩
  cases read
  exact ⟨_, _, ⟨[], [], rfl, rfl, by simp⟩, rfl, by decide, by decide⟩

-- A stub whose port is out of range, a name with a colon, and an unknown name.
theorem bad_stub_diverges :
    ∃ config, newConfig xmlNodeReader loopbackOnly (.loaded (orderStubDocument "70000")) = some config ∧
      findAddr loopbackOnly config .info (text "order") = .nullDereferenced ∧
      findAddr loopbackOnly config .info (text "order:svc") = .threw ∧
      findAddr loopbackOnly config .info (text "stock") = .returned none ∧
      ∀ stubs, ¬ LooksUpCleanly loopbackOnly config stubs .info (text "order") () ∧
        ¬ LooksUpCleanly loopbackOnly config stubs .info (text "stock") () := by
  have readable : (newConfig xmlNodeReader loopbackOnly (.loaded (orderStubDocument "70000"))).isSome = true := by decide
  obtain ⟨config, accepted⟩ := Option.isSome_iff_exists.mp readable
  have ends : (newConfig xmlNodeReader loopbackOnly (.loaded (orderStubDocument "70000"))).map (fun config =>
      (findAddr loopbackOnly config .info (text "order"), findAddr loopbackOnly config .info (text "order:svc"),
        findAddr loopbackOnly config .info (text "stock"))) =
      some (.nullDereferenced, .threw, .returned none) := by decide
  rw [accepted, Option.map_some, Option.some.injEq, Prod.mk.injEq, Prod.mk.injEq] at ends
  obtain ⟨dereferenced, threw, null⟩ := ends
  refine ⟨config, accepted, dereferenced, threw, null, fun stubs => ⟨?_, ?_⟩⟩
  · intro clean
    obtain ⟨addr, returned⟩ := clean.returns
    cases dereferenced.symm.trans returned
  · exact find_addr_null_unclean loopbackOnly config stubs .info (text "stock") () null

end Rocket
