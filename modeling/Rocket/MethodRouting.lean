import Mathlib.Data.List.Induction
import Rocket.RpcDispatcher

set_option autoImplicit false

namespace Rocket

open Word32

variable {μ : Type}

def registerService (serviceMap : ServiceMap μ) (service : Service μ) : ServiceMap μ :=
  fun serviceName => if serviceName = service.fullName then some service else serviceMap serviceName

def registerAll (services : List (Service μ)) : ServiceMap μ := services.foldl registerService (fun _ => none)

-- What protobuf promises of a service with these methods.
structure Described (service : Service μ) (methods : List Bytes) : Prop where
  identifiers : ∀ name ∈ methods, 0x2E ∉ name
  finds : ∀ name index, service.findMethodByName name = some index ↔ methods[index]? = some name

def methodFullName (service : Service μ) (name : Bytes) : Bytes := service.fullName ++ 0x2E :: name

def RegisteredLast (services : List (Service μ)) (fullName : Bytes) (service : Service μ) : Prop :=
  ∃ before after, services = before ++ service :: after ∧ service.fullName = fullName ∧
    ∀ other ∈ after, other.fullName ≠ fullName

inductive Route (μ : Type) where
  | nameError
  | serviceNotFound
  | methodNotFound
  | method (service : Service μ) (index : Nat)

-- Where a method name is meant to lead, without the search for the last dot.
inductive RoutesTo (services : List (Service μ)) (methods : Service μ → List Bytes) : Bytes → Route μ → Prop where
  | nameError (name : Bytes) (noDot : 0x2E ∉ name) : RoutesTo services methods name .nameError
  | serviceNotFound (front name : Bytes) (noDot : 0x2E ∉ name) (unknown : ∀ service ∈ services, service.fullName ≠ front) :
      RoutesTo services methods (front ++ 0x2E :: name) .serviceNotFound
  | methodNotFound (front name : Bytes) (service : Service μ) (noDot : 0x2E ∉ name)
      (registered : RegisteredLast services front service) (unknown : name ∉ methods service) :
      RoutesTo services methods (front ++ 0x2E :: name) .methodNotFound
  | method (name : Bytes) (service : Service μ) (index : Nat) (registered : RegisteredLast services service.fullName service)
      (known : (methods service)[index]? = some name) :
      RoutesTo services methods (methodFullName service name) (.method service index)

structure Refused (result : TinyPBProtocol × Option (ServiceCall μ)) (errCode : Int) (errInfo : Bytes) : Prop where
  notCalled : result.2 = none
  errCode : result.1.errCode = errCode
  errInfo : result.1.errInfo = errInfo

def Follows (request : TinyPBProtocol) (result : TinyPBProtocol × Option (ServiceCall μ)) : Route μ → Prop
  | .nameError => Refused result ERROR_PARSE_SERVICE_NAME (text "parse service name error")
  | .serviceNotFound => Refused result ERROR_SERVICE_NOT_FOUND (text "service not found")
  | .methodNotFound => Refused result ERROR_METHOD_NOT_FOUND (text "method not found")
  | .method service index =>
      let (parsed, reqMsg) := service.parseFromString index request.pbBody
      if parsed = true then
        ∃ call, result.2 = some call ∧ call.service = service ∧ call.method = index ∧ call.reqMsg = reqMsg
      else Refused result ERROR_FAILED_DESERIALIZE (text "deserialize request error")

theorem find_last_of_none (byte : UInt8) (bytes : Bytes) : findLastOf byte bytes = none ↔ byte ∉ bytes := by
  induction bytes with
  | nil => simp [findLastOf]
  | cons head tail ih =>
      rw [List.mem_cons, not_or, ← ih]
      cases found : findLastOf byte tail with
      | some pos => simp [findLastOf, found]
      | none => simp [findLastOf, found, eq_comm]

theorem find_last_of_split (byte : UInt8) (front back : Bytes) (last : byte ∉ back) :
    findLastOf byte (front ++ byte :: back) = some front.length := by
  induction front with
  | nil =>
      have none := (find_last_of_none byte back).mpr last
      simp [findLastOf, none]
  | cons head front ih => simp [findLastOf, ih]

theorem last_split (byte : UInt8) (bytes : Bytes) (member : byte ∈ bytes) :
    ∃ front back, bytes = front ++ byte :: back ∧ byte ∉ back := by
  induction bytes using List.reverseRecOn with
  | nil => cases member
  | append_singleton bytes last ih =>
      by_cases same : last = byte
      · exact ⟨bytes, [], by rw [same], List.not_mem_nil⟩
      · have earlier : byte ∈ bytes := by
          obtain inside | here := List.mem_append.mp member
          · exact inside
          · exact absurd (List.mem_singleton.mp here).symm same
        obtain ⟨front, back, shape, behind⟩ := ih earlier
        refine ⟨front, back ++ [last], by rw [shape, List.append_assoc, List.cons_append], ?_⟩
        rw [List.mem_append, List.mem_singleton, not_or]
        exact ⟨behind, fun here => same here.symm⟩

theorem parse_service_no_dot (name : Bytes) (noDot : 0x2E ∉ name) : parseServiceFullName name = none := by
  rw [parseServiceFullName, (find_last_of_none 0x2E name).mpr noDot]
  split <;> rfl

theorem parse_service_split (front name : Bytes) (noDot : 0x2E ∉ name) :
    parseServiceFullName (front ++ 0x2E :: name) = some (front, name) := by
  rw [parseServiceFullName, if_neg (by simp), find_last_of_split 0x2E front name noDot]
  simp only [List.take_left, Option.some.injEq, Prod.mk.injEq, true_and]
  rw [← List.drop_drop, List.drop_left, List.drop_succ_cons, List.drop_zero]

theorem register_all_append (services : List (Service μ)) (service : Service μ) :
    registerAll (services ++ [service]) = registerService (registerAll services) service := by
  rw [registerAll, List.foldl_append]
  rfl

theorem register_all_none (services : List (Service μ)) (name : Bytes) :
    registerAll services name = none ↔ ∀ service ∈ services, service.fullName ≠ name := by
  induction services using List.reverseRecOn with
  | nil => simp [registerAll]
  | append_singleton services service ih =>
      rw [register_all_append, registerService]
      by_cases same : name = service.fullName
      · simp [same]
      · rw [if_neg same, ih]
        simp [or_imp, forall_and, Ne.symm same]

theorem registered_last_append (services : List (Service μ)) (added service : Service μ) (name : Bytes) :
    RegisteredLast (services ++ [added]) name service ↔
      (service.fullName = name ∧ service = added) ∨ (added.fullName ≠ name ∧ RegisteredLast services name service) := by
  constructor
  · rintro ⟨before, after, shape, named, notLater⟩
    obtain rfl | ⟨earlier, last, rfl⟩ := List.eq_nil_or_concat after
    · obtain ⟨_, ends⟩ := List.append_inj' shape rfl
      exact Or.inl ⟨named, (List.singleton_inj.mp ends).symm⟩
    · rw [List.concat_eq_append, ← List.cons_append, ← List.append_assoc] at shape
      obtain ⟨front, ends⟩ := List.append_inj' shape rfl
      rw [List.singleton_inj.mp ends]
      refine Or.inr ⟨notLater last (by simp), before, earlier, front, named, ?_⟩
      intro other member
      exact notLater other (by simp [member])
  · rintro (⟨named, rfl⟩ | ⟨different, before, after, rfl, named, notLater⟩)
    · exact ⟨services, [], rfl, named, by simp⟩
    · refine ⟨before, after ++ [added], by simp, named, ?_⟩
      intro other member
      obtain later | here := List.mem_append.mp member
      · exact notLater other later
      · rwa [List.mem_singleton.mp here]

theorem register_all_some (services : List (Service μ)) (name : Bytes) (service : Service μ) :
    registerAll services name = some service ↔ RegisteredLast services name service := by
  induction services using List.reverseRecOn with
  | nil => simp [registerAll, RegisteredLast]
  | append_singleton services added ih =>
      rw [registered_last_append, register_all_append, registerService]
      by_cases same : name = added.fullName
      · rw [if_pos same, Option.some.injEq]
        constructor
        · rintro rfl
          exact Or.inl ⟨same.symm, rfl⟩
        · rintro (⟨_, here⟩ | ⟨different, _⟩)
          · exact here.symm
          · exact absurd same.symm different
      · rw [if_neg same, ih]
        constructor
        · intro earlier
          exact Or.inr ⟨Ne.symm same, earlier⟩
        · rintro (⟨named, rfl⟩ | ⟨_, earlier⟩)
          · exact absurd named.symm same
          · exact earlier

-- The decisions of dispatch without its messages.
def routeOf (serviceMap : ServiceMap μ) (name : Bytes) : Route μ :=
  match parseServiceFullName name with
  | none => .nameError
  | some (serviceName, methodName) =>
      match serviceMap serviceName with
      | none => .serviceNotFound
      | some service =>
          match service.findMethodByName methodName with
          | none => .methodNotFound
          | some index => .method service index

theorem set_error_refused (response : TinyPBProtocol) (errCode : Int) (errInfo : Bytes) :
    Refused ((setTinyPBErrorCode response errCode errInfo, none) : TinyPBProtocol × Option (ServiceCall μ)) errCode errInfo :=
  ⟨rfl, by rw [setTinyPBErrorCode, setErrInfo], by rw [setTinyPBErrorCode, setErrInfo]⟩

theorem dispatch_follows (serviceMap : ServiceMap μ) (request : TinyPBProtocol) :
    Follows request (dispatch serviceMap request) (routeOf serviceMap request.methodName) := by
  rw [dispatch, routeOf]
  cases parseServiceFullName request.methodName with
  | none => exact set_error_refused _ _ _
  | some names =>
      obtain ⟨serviceName, methodName⟩ := names
      cases registered : serviceMap serviceName with
      | none =>
          simp only [registered]
          exact set_error_refused _ _ _
      | some service =>
          cases found : service.findMethodByName methodName with
          | none =>
              simp only [registered, found]
              exact set_error_refused _ _ _
          | some index =>
              cases parsed : (service.parseFromString index request.pbBody).1 with
              | false =>
                  simp only [registered, found, Follows, parsed, if_true, Bool.false_eq_true, if_false]
                  exact set_error_refused _ _ _
              | true =>
                  simp only [registered, found, Follows, parsed, if_true, Bool.true_eq_false, if_false]
                  exact ⟨_, rfl, rfl, rfl, rfl⟩

section Routes

variable (services : List (Service μ)) (methods : Service μ → List Bytes)

theorem routes_exist (name : Bytes) : ∃ route, RoutesTo services methods name route := by
  by_cases dotted : 0x2E ∈ name
  · obtain ⟨front, last, rfl, noDot⟩ := last_split 0x2E name dotted
    cases registered : registerAll services front with
    | none => exact ⟨_, .serviceNotFound front last noDot ((register_all_none services front).mp registered)⟩
    | some service =>
        have registeredLast := (register_all_some services front service).mp registered
        obtain rfl : service.fullName = front := by
          obtain ⟨_, _, _, named, _⟩ := registeredLast
          exact named
        by_cases known : last ∈ methods service
        · obtain ⟨index, found⟩ := List.mem_iff_getElem?.mp known
          exact ⟨_, .method last service index registeredLast found⟩
        · exact ⟨_, .methodNotFound _ last service noDot registeredLast known⟩
  · exact ⟨_, .nameError name dotted⟩

theorem registered_described (described : ∀ service ∈ services, Described service (methods service)) (name : Bytes)
    (service : Service μ) (registered : RegisteredLast services name service) : Described service (methods service) := by
  obtain ⟨before, after, rfl, _, _⟩ := registered
  exact described service (by simp)

theorem routes_to_route_of (described : ∀ service ∈ services, Described service (methods service)) (name : Bytes)
    (route : Route μ) (routes : RoutesTo services methods name route) : routeOf (registerAll services) name = route := by
  cases routes with
  | nameError name noDot => rw [routeOf, parse_service_no_dot _ noDot]
  | serviceNotFound front name noDot unknown =>
      have none := (register_all_none services front).mpr unknown
      simp only [routeOf, parse_service_split front name noDot, none]
  | methodNotFound front name service noDot registered unknown =>
      have here := (register_all_some services front service).mpr registered
      have finds := (registered_described services methods described front service registered).finds
      have none : service.findMethodByName name = none := by
        cases found : service.findMethodByName name with
        | none => rfl
        | some index => exact absurd (List.mem_of_getElem? ((finds name index).mp found)) unknown
      simp only [routeOf, parse_service_split front name noDot, here, none]
  | method name service index registered known =>
      have here := (register_all_some services _ service).mpr registered
      obtain ⟨identifiers, finds⟩ := registered_described services methods described _ service registered
      have noDot := identifiers name (List.mem_of_getElem? known)
      have found := (finds name index).mpr known
      simp only [routeOf, methodFullName, parse_service_split service.fullName name noDot, here, found]

end Routes

theorem dispatch_routes (services : List (Service μ)) (methods : Service μ → List Bytes)
    (described : ∀ service ∈ services, Described service (methods service)) (request : TinyPBProtocol) :
    ∃ route, RoutesTo services methods request.methodName route ∧
      (∀ other, RoutesTo services methods request.methodName other → other = route) ∧
      Follows request (dispatch (registerAll services) request) route := by
  obtain ⟨route, routes⟩ := routes_exist services methods request.methodName
  have found := routes_to_route_of services methods described request.methodName route routes
  refine ⟨route, routes, ?_, ?_⟩
  · intro other otherRoutes
    rw [← found, routes_to_route_of services methods described request.methodName other otherRoutes]
  · rw [← found]
    exact dispatch_follows (registerAll services) request

def orderMethods (service : Service Bytes) : List Bytes := if service.fullName = text "a.Order" then [text "make"] else []

def orderService : Service Bytes where
  fullName := text "a.Order"
  findMethodByName name := if name = text "make" then some 0 else none
  parseFromString _ body := (true, body)

theorem order_service_described : Described orderService (orderMethods orderService) := by
  have methods : orderMethods orderService = [text "make"] := by decide
  rw [methods]
  constructor
  · decide
  · intro name index
    by_cases same : name = text "make"
    · cases index with
      | zero => simp [orderService, same]
      | succ index => simp [orderService, same]
    · have different : text "make" ≠ name := Ne.symm same
      cases index with
      | zero => simp [orderService, same, different]
      | succ index => simp [orderService, same]

theorem dispatch_routes_order :
    ∃ route, RoutesTo [orderService, orderService] orderMethods (text "a.Order.make") route ∧
      (∀ other, RoutesTo [orderService, orderService] orderMethods (text "a.Order.make") other → other = route) ∧
      Follows { methodName := text "a.Order.make" }
        (dispatch (registerAll [orderService, orderService]) { methodName := text "a.Order.make" }) route :=
  dispatch_routes [orderService, orderService] orderMethods
    (fun service member => by
      have same : service = orderService := by simpa using member
      rw [same]
      exact order_service_described)
    { methodName := text "a.Order.make" }

end Rocket
