import Mathlib.Data.List.Induction
import Mathlib.Data.List.Sort
import Tudou.Http.RequestLoop

/-!
# `HttpRouter`: exact routes, allowed methods and prefix routes

Model of `src/tudou/http/HttpRouter.{h,cpp}`.

* `HttpRouter` — the three tables and the two optional handlers; a `std::function` may be empty, and
  calling an empty one throws, which is `none`.
* `Registration`, `build` — the router after a sequence of registrations.
* `exactRoutes_build`, `allowedMethods_build`, `prefixRoutes_build` — **what the tables hold, in terms
  of the registrations.**
* `Dispatches` — the reference: exact route, 405, prefix route, 404, in this order.
* `dispatch_reference` — **`dispatch` is the reference**, with an `Allow` header wherever it is not
  empty.
-/

namespace Tudou

/-- What a registered handler does to the response, and to the state of the handlers. -/
abbrev RouteHandler (ω : Type*) := HttpRequest → HttpResponse → ω → HttpResponse × ω

inductive DispatchResult where
  | matched
  | notFound
  | methodNotAllowed
  deriving DecidableEq, Repr

structure RouteKey where
  method : Bytes
  path : Bytes
  deriving DecidableEq, Repr

structure PrefixRoute (ω : Type*) where
  pathPrefix : Bytes
  handler : Option (RouteHandler ω)

/-- `HttpRouter`; a set of methods is listed in the order in which it is iterated. -/
structure HttpRouter (ω : Type*) where
  exactRoutes : RouteKey → Option (Option (RouteHandler ω))
  allowedMethodsByPath : Bytes → Option (List Bytes)
  prefixRoutes : List (PrefixRoute ω)
  notFoundHandler : Option (RouteHandler ω)
  methodNotAllowedHandler : Option (RouteHandler ω)

def kAllowHeader : Bytes := .ofLiteral "Allow"

namespace HttpRouter

variable {ω : Type*}

def create : HttpRouter ω := ⟨fun _ => none, fun _ => none, [], none, none⟩

/-- `add_route(method, path, handler)`. -/
def addRoute (method path : Bytes) (handler : Option (RouteHandler ω)) (r : HttpRouter ω) :
    HttpRouter ω :=
  { r with
    exactRoutes := Function.update r.exactRoutes ⟨method, path⟩ (some handler)
    allowedMethodsByPath := Function.update r.allowedMethodsByPath path
      (some (((r.allowedMethodsByPath path).getD []).insert method)) }

/-- `add_prefix_route(prefix, handler)`. -/
def addPrefixRoute (pathPrefix : Bytes) (handler : Option (RouteHandler ω)) (r : HttpRouter ω) :
    HttpRouter ω :=
  { r with prefixRoutes := r.prefixRoutes ++ [⟨pathPrefix, handler⟩] }

def setNotFoundHandler (handler : Option (RouteHandler ω)) (r : HttpRouter ω) : HttpRouter ω :=
  { r with notFoundHandler := handler }

def setMethodNotAllowedHandler (handler : Option (RouteHandler ω)) (r : HttpRouter ω) :
    HttpRouter ω :=
  { r with methodNotAllowedHandler := handler }

def findExactHandler (r : HttpRouter ω) (req : HttpRequest) : Option (Option (RouteHandler ω)) :=
  r.exactRoutes ⟨req.method, req.path⟩

def findAllowedMethods (r : HttpRouter ω) (path : Bytes) : Option (List Bytes) :=
  r.allowedMethodsByPath path

/-- `find_prefix_handler(path)`: the first route whose prefix begins the path. -/
def findPrefixHandler (r : HttpRouter ω) (path : Bytes) : Option (Option (RouteHandler ω)) :=
  (r.prefixRoutes.find? fun route => route.pathPrefix.length ≤ path.length ∧
    path.take route.pathPrefix.length = route.pathPrefix).map PrefixRoute.handler

/-- The methods of an `Allow` header, joined. -/
def joinMethods (methods : List Bytes) : Bytes := List.intercalate (Bytes.ofLiteral ", ") methods

/-- `format_allow_header(allowedMethods)`. -/
def formatAllowHeader (allowedMethods : List Bytes) : Bytes :=
  if allowedMethods = [] then []
  else joinMethods (allowedMethods.insertionSort (· ≤ ·))

/-- `write_method_not_allowed_response(req, allowedMethods, resp)`. -/
def writeMethodNotAllowedResponse (r : HttpRouter ω) (req : HttpRequest) (allowedMethods : List Bytes)
    (resp : HttpResponse) (w : ω) : HttpResponse × ω :=
  match r.methodNotAllowedHandler with
  | some handler => handler req resp w
  | none =>
    let resp := HttpResponse.plainText 405 (.ofLiteral "Method Not Allowed")
      (.ofLiteral "Method Not Allowed")
    let allowHeader := formatAllowHeader allowedMethods
    (if allowHeader = [] then resp else resp.setHeader kAllowHeader allowHeader, w)

/-- `write_not_found_response(req, resp)`. -/
def writeNotFoundResponse (r : HttpRouter ω) (req : HttpRequest) (resp : HttpResponse) (w : ω) :
    HttpResponse × ω :=
  match r.notFoundHandler with
  | some handler => handler req resp w
  | none => (.plainText 404 (.ofLiteral "Not Found") (.ofLiteral "Not Found"), w)

/-- `dispatch(req, resp)`. -/
def dispatch (r : HttpRouter ω) (req : HttpRequest) (resp : HttpResponse) (w : ω) :
    Option (DispatchResult × HttpResponse × ω) :=
  match r.findExactHandler req with
  | some exactHandler => exactHandler.map fun handler => (.matched, handler req resp w)
  | none =>
    match r.findAllowedMethods req.path with
    | some allowedMethods =>
      some (.methodNotAllowed, r.writeMethodNotAllowedResponse req allowedMethods resp w)
    | none =>
      match r.findPrefixHandler req.path with
      | some prefixHandler => prefixHandler.map fun handler => (.matched, handler req resp w)
      | none => some (.notFound, r.writeNotFoundResponse req resp w)

end HttpRouter

/-! ## Registrations -/

/-- What an application registers; the handlers of routes are not empty. -/
inductive Registration (ω : Type*) where
  | route (method path : Bytes) (handler : RouteHandler ω)
  | prefixRoute (pathPrefix : Bytes) (handler : RouteHandler ω)
  | notFound (handler : Option (RouteHandler ω))
  | methodNotAllowed (handler : Option (RouteHandler ω))

namespace Registration

variable {ω : Type*}

/-- The handler of an exact route with this key. -/
def routeFor (method path : Bytes) : Registration ω → Option (RouteHandler ω)
  | route m p handler => if m = method ∧ p = path then some handler else none
  | _ => none

/-- The method of an exact route on this path. -/
def methodOn (path : Bytes) : Registration ω → Option Bytes
  | route m p _ => if p = path then some m else none
  | _ => none

/-- The handler of a prefix route whose prefix begins the path. -/
def prefixFor (path : Bytes) : Registration ω → Option (RouteHandler ω)
  | prefixRoute pathPrefix handler => if pathPrefix <+: path then some handler else none
  | _ => none

def notFoundSet : Registration ω → Option (Option (RouteHandler ω))
  | notFound handler => some handler
  | _ => none

def methodNotAllowedSet : Registration ω → Option (Option (RouteHandler ω))
  | methodNotAllowed handler => some handler
  | _ => none

/-- What the last registration of a kind has set. -/
def last {β : Type*} (kind : Registration ω → Option β) (regs : List (Registration ω)) : Option β :=
  regs.reverse.findSome? kind

theorem last_append {β : Type*} (kind : Registration ω → Option β) (regs : List (Registration ω))
    (reg : Registration ω) : last kind (regs ++ [reg]) = (kind reg).or (last kind regs) := by
  simp only [last, List.reverse_append, List.reverse_singleton, List.singleton_append,
    List.findSome?_cons]
  cases kind reg with
  | none => rfl
  | some b => rfl

end Registration

open Registration

namespace HttpRouter

variable {ω : Type*}

def register (r : HttpRouter ω) : Registration ω → HttpRouter ω
  | .route method path handler => r.addRoute method path (some handler)
  | .prefixRoute pathPrefix handler => r.addPrefixRoute pathPrefix (some handler)
  | .notFound handler => r.setNotFoundHandler handler
  | .methodNotAllowed handler => r.setMethodNotAllowedHandler handler

/-- The router after these registrations. -/
def build (regs : List (Registration ω)) : HttpRouter ω := regs.foldl register create

theorem build_append (regs : List (Registration ω)) (reg : Registration ω) :
    build (regs ++ [reg]) = (build regs).register reg := by
  rw [build, List.foldl_append]
  rfl

/-- **The exact table holds the last handler of every key.** -/
theorem exactRoutes_build (regs : List (Registration ω)) (method path : Bytes) :
    (build regs).exactRoutes ⟨method, path⟩ = (last (routeFor method path) regs).map some := by
  induction regs using List.reverseRecOn with
  | nil => rfl
  | append_singleton regs reg ih =>
    rw [build_append, last_append]
    cases reg with
    | route m p handler =>
      by_cases h : m = method ∧ p = path
      · obtain ⟨rfl, rfl⟩ := h
        simp [register, addRoute, routeFor]
      · have hne : (⟨method, path⟩ : RouteKey) ≠ ⟨m, p⟩ := by
          rintro ⟨⟩
          exact h ⟨rfl, rfl⟩
        simp [register, addRoute, routeFor, h, Function.update_of_ne hne, ih]
    | prefixRoute _ _ | notFound _ | methodNotAllowed _ => exact ih

/-- What the index of a path is to hold. -/
def Indexes (allowedMethods : Option (List Bytes)) (methods : List Bytes) : Prop :=
  match allowedMethods with
  | none => methods = []
  | some allowed => methods ≠ [] ∧ allowed.Nodup ∧ ∀ m, m ∈ allowed ↔ m ∈ methods

/-- One more method is registered on the path. -/
theorem Indexes.insert {allowedMethods : Option (List Bytes)} {methods : List Bytes}
    (h : Indexes allowedMethods methods) (method : Bytes) :
    Indexes (some ((allowedMethods.getD []).insert method)) (methods ++ [method]) := by
  cases allowedMethods with
  | none =>
    obtain rfl : methods = [] := h
    exact ⟨by simp, by simp, by simp⟩
  | some allowed =>
    obtain ⟨-, hnodup, hmem⟩ := h
    refine ⟨by simp, hnodup.insert, fun m => ?_⟩
    simp only [Option.getD_some, List.mem_insert_iff, hmem, List.mem_append, List.mem_singleton]
    exact or_comm

/-- **The index holds the methods registered on every path.** -/
theorem allowedMethods_build (regs : List (Registration ω)) (path : Bytes) :
    Indexes ((build regs).allowedMethodsByPath path) (regs.filterMap (methodOn path)) := by
  induction regs using List.reverseRecOn with
  | nil => exact rfl
  | append_singleton regs reg ih =>
    rw [build_append, List.filterMap_append]
    cases reg with
    | route m p handler =>
      by_cases h : p = path
      · subst h
        simp only [register, addRoute, Function.update_self, List.filterMap_cons, methodOn, if_true,
          List.filterMap_nil]
        exact ih.insert m
      · simp only [register, addRoute, Function.update_of_ne (Ne.symm h), List.filterMap_cons, methodOn,
          h, if_false, List.filterMap_nil, List.append_nil]
        exact ih
    | prefixRoute _ _ | notFound _ | methodNotAllowed _ =>
      simp only [List.filterMap_cons, methodOn, List.filterMap_nil, List.append_nil]
      exact ih

/-- **The prefix routes are found in the order of their registration.** -/
theorem prefixRoutes_build (regs : List (Registration ω)) (path : Bytes) :
    (build regs).findPrefixHandler path = (regs.findSome? (prefixFor path)).map some := by
  have happend : ∀ (r : HttpRouter ω) (pathPrefix : Bytes) (handler : Option (RouteHandler ω)),
      (r.addPrefixRoute pathPrefix handler).findPrefixHandler path =
        (r.findPrefixHandler path).or (if pathPrefix <+: path then some handler else none) := by
    intro r pathPrefix handler
    have hbegins : (pathPrefix.length ≤ path.length ∧ path.take pathPrefix.length = pathPrefix) ↔
        pathPrefix <+: path := by
      rw [List.prefix_iff_eq_take]
      constructor
      · exact fun h => h.2.symm
      · intro h
        refine ⟨?_, h.symm⟩
        rw [h]
        exact List.length_take_le' _ _
    simp only [findPrefixHandler, addPrefixRoute, List.find?_append, List.find?_singleton, hbegins]
    cases List.find? _ r.prefixRoutes with
    | none =>
      by_cases h : pathPrefix <+: path
      · simp [h]
      · simp [h]
    | some route => rfl
  induction regs using List.reverseRecOn with
  | nil => rfl
  | append_singleton regs reg ih =>
    rw [build_append, List.findSome?_append]
    cases reg with
    | prefixRoute pathPrefix handler =>
      rw [register, happend, ih]
      cases List.findSome? (prefixFor path) regs with
      | some handler' => rfl
      | none =>
        by_cases h : pathPrefix <+: path
        · simp [prefixFor, h]
        · simp [prefixFor, h]
    | route _ _ _ | notFound _ | methodNotAllowed _ =>
      simp only [List.findSome?_singleton, prefixFor, Option.or_none]
      exact ih

theorem notFoundHandler_build (regs : List (Registration ω)) :
    (build regs).notFoundHandler = (last notFoundSet regs).getD none := by
  induction regs using List.reverseRecOn with
  | nil => rfl
  | append_singleton regs reg ih =>
    rw [build_append, last_append]
    cases reg with
    | notFound handler => rfl
    | route _ _ _ | prefixRoute _ _ | methodNotAllowed _ => exact ih

theorem methodNotAllowedHandler_build (regs : List (Registration ω)) :
    (build regs).methodNotAllowedHandler = (last methodNotAllowedSet regs).getD none := by
  induction regs using List.reverseRecOn with
  | nil => rfl
  | append_singleton regs reg ih =>
    rw [build_append, last_append]
    cases reg with
    | methodNotAllowed handler => rfl
    | route _ _ _ | prefixRoute _ _ | notFound _ => exact ih

/-! ## The `Allow` header -/

/-- The methods registered on a path: sorted, and each of them once. -/
structure IsMethodList (regs : List (Registration ω)) (path : Bytes) (methods : List Bytes) : Prop where
  sorted : methods.Pairwise (· < ·)
  mem : ∀ method, method ∈ methods ↔ ∃ handler, .route method path handler ∈ regs

theorem mem_methodOn {regs : List (Registration ω)} {path method : Bytes} :
    method ∈ regs.filterMap (methodOn path) ↔ ∃ handler, .route method path handler ∈ regs := by
  rw [List.mem_filterMap]
  constructor
  · rintro ⟨reg, hreg, hon⟩
    cases reg with
    | route m p handler =>
      simp only [methodOn] at hon
      split at hon
      · rename_i hp
        cases hon
        subst hp
        exact ⟨handler, hreg⟩
      · cases hon
    | prefixRoute _ _ | notFound _ | methodNotAllowed _ => cases hon
  · rintro ⟨handler, hreg⟩
    exact ⟨_, hreg, if_pos rfl⟩

/-- Sorting a set of methods gives a list without duplicates in strict order. -/
theorem pairwise_sort {allowed : List Bytes} (h : allowed.Nodup) :
    (allowed.insertionSort (· ≤ ·)).Pairwise (· < ·) := by
  have hle := List.pairwise_insertionSort (α := Bytes) (· ≤ ·) allowed
  have hne : (allowed.insertionSort (· ≤ ·)).Nodup := (List.perm_insertionSort _ _).nodup_iff.mpr h
  refine (hle.and hne).imp fun hab => ?_
  exact (List.le_iff_lt_or_eq.mp hab.1).resolve_right hab.2

/-- The index of a path, sorted, is its method list. -/
theorem Indexes.isMethodList {regs : List (Registration ω)} {path : Bytes} {allowed : List Bytes}
    (h : Indexes (some allowed) (regs.filterMap (methodOn path))) :
    IsMethodList regs path (allowed.insertionSort (· ≤ ·)) := by
  obtain ⟨-, hnodup, hmem⟩ := h
  refine ⟨pairwise_sort hnodup, fun method => ?_⟩
  rw [List.mem_insertionSort, hmem]
  exact mem_methodOn

/-- The joined methods are empty only for a single method that is. -/
theorem joinMethods_eq_nil {methods : List Bytes} (h : methods ≠ []) :
    joinMethods methods = [] ↔ methods = [[]] := by
  cases methods with
  | nil => exact absurd rfl h
  | cons m ms =>
    cases ms with
    | nil => simp [joinMethods, List.intercalate]
    | cons m' ms =>
      have hsep : Bytes.ofLiteral ", " ≠ [] := by decide
      simp [joinMethods, List.intercalate, List.intersperse, hsep]

/-- Joined with the separator. -/
example : joinMethods [.ofLiteral "GET", .ofLiteral "POST"] = .ofLiteral "GET, POST" := by decide

/-! ## The reference -/

/-- **The reference definition of a dispatch**, with the `Allow` header `allow` makes of a method
list. -/
def Dispatches (allow : List Bytes → Option Bytes) (regs : List (Registration ω)) (req : HttpRequest)
    (resp : HttpResponse) (w : ω) (result : DispatchResult × HttpResponse × ω) : Prop :=
  match last (routeFor req.method req.path) regs with
  | some handler => result = (.matched, handler req resp w)
  | none =>
    if regs.filterMap (methodOn req.path) ≠ [] then
      result.1 = .methodNotAllowed ∧
        match (last methodNotAllowedSet regs).getD none with
        | some handler => result.2 = handler req resp w
        | none => ∃ methods, IsMethodList regs req.path methods ∧
          result.2.1.headers.lookup kAllowHeader = allow methods ∧ result.2.2 = w
    else
      match regs.findSome? (prefixFor req.path) with
      | some handler => result = (.matched, handler req resp w)
      | none =>
        result.1 = .notFound ∧
          match (last notFoundSet regs).getD none with
          | some handler => result.2 = handler req resp w
          | none => result.2 =
            (.plainText 404 (.ofLiteral "Not Found") (.ofLiteral "Not Found"), w)

/-- The joined methods, except that an empty header is left out. -/
def allowUnlessEmpty (methods : List Bytes) : Option Bytes :=
  if methods = [[]] then none else some (joinMethods methods)

/-- **The default 405 response** names the methods of its path. -/
theorem writeMethodNotAllowedResponse_allow {r : HttpRouter ω} (hdefault : r.methodNotAllowedHandler = none)
    (req : HttpRequest) {allowed : List Bytes} (hne : allowed ≠ []) (resp : HttpResponse) (w : ω) :
    (r.writeMethodNotAllowedResponse req allowed resp w).1.headers.lookup kAllowHeader =
        allowUnlessEmpty (allowed.insertionSort (· ≤ ·)) ∧
      (r.writeMethodNotAllowedResponse req allowed resp w).2 = w := by
  have hsorted : allowed.insertionSort (· ≤ ·) ≠ [] := by
    intro h
    exact hne (List.length_eq_zero_iff.mp (by rw [← List.length_insertionSort (· ≤ ·), h]; rfl))
  simp only [writeMethodNotAllowedResponse, hdefault, formatAllowHeader, if_neg hne,
    joinMethods_eq_nil hsorted, allowUnlessEmpty, and_true]
  split
  · decide
  · exact (lookup_setHeader _ _ _ _).trans (if_pos rfl)

/-- **`dispatch` is the reference**: the last handler of an exact route runs, else the answer is 405
with the sorted methods of the path, else the first prefix route that begins the path runs, else the
answer is 404. -/
theorem dispatch_reference (regs : List (Registration ω)) (req : HttpRequest) (resp : HttpResponse)
    (w : ω) : ∃ result, (build regs).dispatch req resp w = some result ∧
      Dispatches allowUnlessEmpty regs req resp w result := by
  have hexact := exactRoutes_build regs req.method req.path
  have hindex := allowedMethods_build regs req.path
  unfold dispatch Dispatches
  rw [findExactHandler, hexact]
  cases last (routeFor req.method req.path) regs with
  | some handler => exact ⟨_, rfl, rfl⟩
  | none =>
    rw [Option.map_none, findAllowedMethods]
    cases hallowed : (build regs).allowedMethodsByPath req.path with
    | some allowed =>
      rw [hallowed] at hindex
      have hne : allowed ≠ [] := by
        rintro rfl
        exact hindex.1 (List.eq_nil_iff_forall_not_mem.mpr fun m hm =>
          List.not_mem_nil ((hindex.2.2 m).mpr hm))
      refine ⟨_, rfl, ?_⟩
      rw [if_pos hindex.1, ← methodNotAllowedHandler_build]
      refine ⟨rfl, ?_⟩
      cases hcustom : (build regs).methodNotAllowedHandler with
      | some handler => simp only [writeMethodNotAllowedResponse, hcustom]
      | none =>
        obtain ⟨hallow, hw⟩ := writeMethodNotAllowedResponse_allow hcustom req hne resp w
        exact ⟨_, hindex.isMethodList, hallow, hw⟩
    | none =>
      rw [hallowed] at hindex
      have hnone : ¬regs.filterMap (methodOn req.path) ≠ [] := not_not.mpr hindex
      rw [prefixRoutes_build]
      cases regs.findSome? (prefixFor req.path) with
      | some handler =>
        refine ⟨_, rfl, ?_⟩
        rw [if_neg hnone]
      | none =>
        refine ⟨_, rfl, ?_⟩
        rw [if_neg hnone, ← notFoundHandler_build]
        refine ⟨rfl, ?_⟩
        cases hcustom : (build regs).notFoundHandler with
        | some handler => simp only [writeNotFoundResponse, hcustom]
        | none => simp only [writeNotFoundResponse, hcustom]

/-- The only method registered on `/x` is the empty string. -/
def emptyMethod : List (Registration Unit) := [.route [] (.ofLiteral "/x") fun _ resp w => (resp, w)]

/-- Then the 405 response has no `Allow` header at all. -/
theorem empty_method_without_allow :
    ¬∀ (regs : List (Registration Unit)) (req : HttpRequest) (resp : HttpResponse) (w : Unit),
      ∃ result, (build regs).dispatch req resp w = some result ∧
        Dispatches (fun methods => some (joinMethods methods)) regs req resp w result := by
  intro h
  obtain ⟨result, hresult, hdispatches⟩ :=
    h emptyMethod { method := .ofLiteral "GET", path := .ofLiteral "/x" } {} ()
  have hlast : last (routeFor (.ofLiteral "GET") (.ofLiteral "/x")) emptyMethod = none := rfl
  have hon : emptyMethod.filterMap (methodOn (.ofLiteral "/x")) ≠ [] := by decide
  have hcustom : (last methodNotAllowedSet emptyMethod).getD none = none := rfl
  simp only [Dispatches, hlast, if_pos hon, hcustom] at hdispatches
  obtain ⟨-, methods, -, hallow, -⟩ := hdispatches
  cases hresult
  revert hallow
  exact nofun

/-- The handler of an `HttpServer` is `build_http_response` of its router. -/
def buildHttpResponse (r : HttpRouter ω) (req : HttpRequest) (w : ω) : Option (HttpResponse × ω) :=
  (r.dispatch req {} w).map Prod.snd

/-- **A router with these registrations answers every request**, so it is a handler for the request
loop. -/
theorem exists_httpHandler (regs : List (Registration ω)) :
    ∃ handler : HttpHandler ω, ∀ req w, (build regs).buildHttpResponse req w = some (handler req w) := by
  have hsome : ∀ req w, ∃ reply, (build regs).buildHttpResponse req w = some reply := by
    intro req w
    unfold buildHttpResponse dispatch
    rw [findExactHandler, exactRoutes_build, prefixRoutes_build]
    cases last (routeFor req.method req.path) regs with
    | some handler => exact ⟨_, rfl⟩
    | none =>
      cases (build regs).findAllowedMethods req.path with
      | some allowed => exact ⟨_, rfl⟩
      | none =>
        cases regs.findSome? (prefixFor req.path) with
        | some handler => exact ⟨_, rfl⟩
        | none => exact ⟨_, rfl⟩
  choose handler hhandler using hsome
  exact ⟨handler, hhandler⟩

end HttpRouter

end Tudou
