import Mathlib.Data.List.Basic

/-!
# Routing by the first match

A router keeps its routes in the order they were registered and hands a request to the
first one whose template matches the path and whose methods hold the request's. A path is
the list of its segments; a parameter matches any one segment. A route that comes after
one with a wider template is never handed a request.
-/

namespace Routing

inductive Method where
  | get
  | head
  | post
  | put
  | patch
  | delete
  deriving DecidableEq, Repr

/- `rest` stands for all that follows, as in a mounted application. -/
inductive Segment where
  | literal (text : String)
  | param (name : String)
  | rest
  deriving DecidableEq, Repr

/- What the parameters of a matched template are. -/
def matchPath : List Segment → List String → Option (List (String × String))
  | [], [] => some []
  | .rest :: _, _ => some []
  | .literal text :: ps, s :: ss => if s = text then matchPath ps ss else none
  | .param name :: ps, s :: ss => if s = "" then none else (matchPath ps ss).map ((name, s) :: ·)
  | _, _ => none

/- Without a list of methods a route takes them all. -/
structure Route (E : Type) where
  methods : Option (List Method)
  path : List Segment
  endpoint : E

inductive Dispatch (E : Type) where
  | handled (endpoint : E) (params : List (String × String))
  | methodNotAllowed
  | notFound

variable {E : Type}

def Route.accepts (r : Route E) (m : Method) : Bool :=
  match r.methods with
  | none => true
  | some ms => m ∈ ms

def Route.take (r : Route E) (m : Method) (path : List String) :
    Option (E × List (String × String)) :=
  if r.accepts m then (matchPath r.path path).map fun params => (r.endpoint, params) else none

def dispatch (routes : List (Route E)) (m : Method) (path : List String) : Dispatch E :=
  match routes.findSome? fun r => r.take m path with
  | some (endpoint, params) => .handled endpoint params
  | none =>
    if routes.any fun r => (matchPath r.path path).isSome then .methodNotAllowed else .notFound

/- Every path the second template matches, the first one matches. -/
def covers : List Segment → List Segment → Bool
  | .rest :: _, _ => true
  | [], [] => true
  | .literal s :: ps, .literal t :: qs => s = t && covers ps qs
  | .param _ :: ps, .literal t :: qs => t ≠ "" && covers ps qs
  | .param _ :: ps, .param _ :: qs => covers ps qs
  | _, _ => false

theorem matchPath_literal (text s : String) (ps : List Segment) (ss : List String) :
    matchPath (.literal text :: ps) (s :: ss) = if s = text then matchPath ps ss else none := rfl

theorem matchPath_param (name s : String) (ps : List Segment) (ss : List String) :
    matchPath (.param name :: ps) (s :: ss) =
      if s = "" then none else (matchPath ps ss).map ((name, s) :: ·) := rfl

theorem covers_match {ps qs : List Segment} {path : List String} (h : covers ps qs = true)
    (hq : (matchPath qs path).isSome = true) : (matchPath ps path).isSome = true := by
  induction ps, qs using covers.induct generalizing path with
  | case1 ps qs => cases path <;> rfl
  | case2 => exact hq
  | case3 s ps t qs ih =>
    simp only [covers, Bool.and_eq_true, decide_eq_true_eq] at h
    obtain ⟨rfl, htail⟩ := h
    cases path with
    | nil => cases hq
    | cons a path =>
      rw [matchPath_literal] at hq ⊢
      split at hq
      · next ha =>
        rw [if_pos ha]
        exact ih htail hq
      · cases hq
  | case4 name ps t qs ih =>
    simp only [covers, Bool.and_eq_true, decide_eq_true_eq] at h
    obtain ⟨hne, htail⟩ := h
    cases path with
    | nil => cases hq
    | cons a path =>
      rw [matchPath_literal] at hq
      rw [matchPath_param]
      split at hq
      · next ha =>
        rw [if_neg (ha ▸ hne), Option.isSome_map]
        exact ih htail hq
      · cases hq
  | case5 name ps name' qs ih =>
    cases path with
    | nil => cases hq
    | cons a path =>
      rw [matchPath_param] at hq ⊢
      split at hq
      · cases hq
      · next ha =>
        rw [Option.isSome_map] at hq
        rw [if_neg ha, Option.isSome_map]
        exact ih h hq
  | case6 => simp [covers] at h

def Route.hides (q r : Route E) : Bool :=
  covers q.path r.path &&
    match q.methods, r.methods with
    | none, _ => true
    | some ms, some ns => ns.all (· ∈ ms)
    | some _, none => false

theorem Route.take_of_hides {q r : Route E} {m : Method} {path : List String}
    (h : q.hides r = true) (hr : (r.take m path).isSome = true) :
    (q.take m path).isSome = true := by
  simp only [Route.hides, Bool.and_eq_true] at h
  unfold Route.take at hr ⊢
  split at hr
  · next hm =>
    rw [Option.isSome_map] at hr
    have hq : q.accepts m = true := by
      obtain ⟨-, hmethods⟩ := h
      unfold Route.accepts at hm ⊢
      cases hqm : q.methods with
      | none => rfl
      | some ms =>
        cases hrm : r.methods with
        | none => simp [hqm, hrm] at hmethods
        | some ns =>
          simp only [hqm, hrm, List.all_eq_true, decide_eq_true_eq] at hmethods hm ⊢
          exact hmethods m hm
    rw [if_pos hq, Option.isSome_map]
    exact covers_match h.1 hr
  · cases hr

/- Each route of the endpoint is hidden by one before it. -/
def hidden [DecidableEq E] (e : E) : List (Route E) → List (Route E) → Bool
  | _, [] => true
  | seen, r :: rs => (r.endpoint ≠ e || seen.any (·.hides r)) && hidden e (r :: seen) rs

theorem findSome?_hidden [DecidableEq E] {e : E} {m : Method} {path : List String}
    {params : List (String × String)} {seen routes : List (Route E)}
    (h : hidden e seen routes = true) (hseen : ∀ r ∈ seen, r.take m path = none) :
    routes.findSome? (fun r => r.take m path) ≠ some (e, params) := by
  induction routes generalizing seen with
  | nil => simp
  | cons r rs ih =>
    simp only [hidden, Bool.and_eq_true, Bool.or_eq_true, decide_eq_true_eq] at h
    rw [List.findSome?_cons]
    cases htake : r.take m path with
    | none =>
      refine ih h.2 fun q hq => ?_
      rcases List.mem_cons.mp hq with rfl | hq
      · exact htake
      · exact hseen q hq
    | some taken =>
      rintro heq
      have hendpoint : taken.1 = r.endpoint := by
        unfold Route.take at htake
        split at htake
        · obtain ⟨params, -, rfl⟩ := Option.map_eq_some_iff.mp htake
          rfl
        · cases htake
      rcases h.1 with hne | hany
      · exact hne (hendpoint ▸ congrArg Prod.fst (Option.some.inj heq))
      · obtain ⟨q, hq, hides⟩ := List.any_eq_true.mp hany
        have hsome := Route.take_of_hides (m := m) hides (Option.isSome_iff_exists.mpr ⟨_, htake⟩)
        rw [hseen q hq] at hsome
        cases hsome

/-- An endpoint all of whose routes are hidden handles no request. -/
theorem dispatch_hidden [DecidableEq E] {e : E} {routes : List (Route E)}
    (h : hidden e [] routes = true) (m : Method) (path : List String)
    (params : List (String × String)) : dispatch routes m path ≠ .handled e params := by
  have hnone : routes.findSome? (fun r => r.take m path) ≠ some (e, params) :=
    findSome?_hidden h fun r hr => absurd hr List.not_mem_nil
  unfold dispatch
  split
  · next endpoint found hfound =>
    rintro heq
    obtain ⟨rfl, rfl⟩ := Dispatch.handled.inj heq
    exact hnone hfound
  · split <;> simp

end Routing
