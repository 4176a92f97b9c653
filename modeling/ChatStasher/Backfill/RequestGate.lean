import ChatStasher.Library.JsonText

/-! The gate of the content script: which requests it sends for the worker, with the page's cookies. -/
namespace ChatStasher.RequestGate
open JsonText

/-- A parsed URL; its parser escapes the braces of a path. -/
structure Url where
  origin : Units
  pathname : Units
  search : Units
  hash : Units
  searchParams : List (Units × Units)
  href : Units
  noBrace : unit '\x7b' ∉ pathname

/-- The parsers of URLs and of form bodies. -/
structure WebPlatform where
  url : Units → Option Url
  formFields : Units → List (Units × Units)

structure BackfillRequestSpec where
  url : Units
  method : Option Units
  body : Option Units
  contentType : Option Units

structure ChatPlatform where
  id : Units
  origins : List Units

structure PostKeySpec where
  contentType : Units
  bodyKeys : List Units
  bodyArrayKeys : List Units

structure FormPostSpec where
  contentType : Units
  bodyKeys : List Units
  batchKey : Units
  rpcids : List Units
  batchKind : Units
  query : List (Units × Units)
  checkArgs : Units → Value → Option Units
  nodup : bodyKeys.Nodup

inductive PostSpec
  | keys (spec : PostKeySpec)
  | form (spec : FormPostSpec)

/-- A further list path, or one `below` which lie the conversations of each container. -/
structure ListAuxPath where
  path : Units
  below : Bool
  queryKeys : List Units
  requiredQueryKeys : List Units
  selector : Option (Units × Units)

structure ScopeInPathSpec where
  listPath : Units
  detailPath : Units
  resolvePath : Units

structure DetailStep2Spec extends PostKeySpec where
  path : Units

structure BackfillEnumPlan where
  listPath : Units
  listAuxPaths : List ListAuxPath
  listPost : Option PostKeySpec
  listTokenPost : Option PostKeySpec
  listTokenForm : Option FormPostSpec
  detailPath : Option Units
  detailUrl : Option (Units → Units → Units)
  detailQueryKey : Option Units
  detailQueryPinned : Option (List (Units × Units))
  detailPost : Option PostKeySpec
  detailForm : Option FormPostSpec
  detailStep2 : Option DetailStep2Spec
  scopeInPath : Option ScopeInPathSpec

inductive BackfillSegment
  | list
  | detail
  | detail2
  | resolve
  deriving DecidableEq

def BackfillSegment.name : BackfillSegment → String
  | list => "list"
  | detail => "detail"
  | detail2 => "detail2"
  | resolve => "resolve"

section Paths

def detailIdToken : Units := units "\x7bid\x7d"

def scopeIdToken : Units := units "\x7borg\x7d"

def indexOf (token t : Units) : Option ℕ :=
  (List.range (t.length + 1)).find? fun i => token <+: t.drop i

def slice (t : Units) (start stop : ℕ) : Units := (t.take stop).drop start

/-- Without a token the path is exact, or everything below one that ends in a slash. -/
def detailPathMatches (detailPath pathname : Units) : Bool :=
  match indexOf detailIdToken detailPath with
  | none => if units "/" <:+ detailPath then detailPath <+: pathname else pathname = detailPath
  | some tokenAt =>
    let front := detailPath.take tokenAt
    let rear := detailPath.drop (tokenAt + detailIdToken.length)
    let between := slice pathname front.length (pathname.length - rear.length)
    front <+: pathname && rear <:+ pathname && between ≠ [] && unit '/' ∉ between

def partMatches (scope : Option Units) (part value : Units) : Bool :=
  if part = scopeIdToken then value ≠ [] && scope = some value
  else if part = detailIdToken then value ≠ []
  else part = value

def scopePathMatches (template pathname : Units) (scope : Option Units) : Bool :=
  let wanted := template.splitOn (unit '/')
  let found := pathname.splitOn (unit '/')
  wanted.length = found.length && (wanted.zip found).all fun x => partMatches scope x.1 x.2

def auxListPathMatches (route : ListAuxPath) (pathname : Units) : Bool :=
  if !route.below then pathname = route.path
  else
    match ((pathname.drop route.path.length).splitOn (unit '/')).filter (· ≠ []) with
    | [_, tail] => route.path <+: pathname && tail = units "conversations"
    | _ => false

def getAll (params : List (Units × Units)) (key : Units) : List Units :=
  (params.filter fun x => x.1 = key).map Prod.snd

def pinnedQueryMatches (pinned : List (Units × Units)) (u : Url) : Bool :=
  (u.searchParams.map Prod.fst).dedup.length = pinned.length &&
    pinned.all fun x => getAll u.searchParams x.1 = [x.2]

def formQueryMatches (spec : FormPostSpec) (u : Url) : Bool := pinnedQueryMatches spec.query u

def formSegmentFor (plan : BackfillEnumPlan) (u : Url) : Option BackfillSegment :=
  if plan.listTokenForm.any (formQueryMatches · u) then some .list
  else if plan.detailForm.any (formQueryMatches · u) then some .detail
  else none

def postSpecFor (plan : BackfillEnumPlan) : BackfillSegment → Option PostSpec
  | .resolve => none
  | .list => ((plan.listTokenPost <|> plan.listPost).map .keys) <|> plan.listTokenForm.map .form
  | .detail => (plan.detailPost.map .keys) <|> plan.detailForm.map .form
  | .detail2 => plan.detailStep2.map fun step => .keys step.toPostKeySpec

def expectedMethodFor (plan : BackfillEnumPlan) (segment : BackfillSegment) : Units :=
  if (postSpecFor plan segment).isSome then units "POST" else units "GET"

def auxListFor (plan : BackfillEnumPlan) (u : Url) : Option ListAuxPath :=
  plan.listAuxPaths.find? fun route => auxListPathMatches route u.pathname &&
    route.selector.all fun (key, value) => (getAll u.searchParams key).head? = some value

/-- Which of the plan's own endpoints a URL names; the paths that carry the scope come first. -/
def segmentFor (plan : BackfillEnumPlan) (u : Url) (scope : Option Units) :
    Option BackfillSegment :=
  if plan.scopeInPath.any (u.pathname = ·.resolvePath) then some .resolve
  else if plan.scopeInPath.any (scopePathMatches ·.listPath u.pathname scope) then some .list
  else if plan.scopeInPath.any (scopePathMatches ·.detailPath u.pathname scope) then some .detail
  else if let some segment := formSegmentFor plan u then some segment
  else if u.pathname = plan.listPath then some .list
  else if (auxListFor plan u).isSome then some .list
  else if plan.detailPath.any (detailPathMatches · u.pathname) then some .detail
  else if plan.detailStep2.any (detailPathMatches ·.path u.pathname) then some .detail2
  else none

end Paths

section Checks

/-- What the other side is told, and what the log is told. -/
structure Refusal where
  reason : Units
  detail : Units
  deriving DecidableEq

def refusedUrlReason : Units := units "refused: url is not a same-origin backfill endpoint"

def refuseUrl (detail : String) : Refusal := ⟨refusedUrlReason, units detail⟩

def refuseRequest (reason : String) : Refusal := ⟨units ("refused: " ++ reason),
  units ("refused: " ++ reason)⟩

def require (holds : Prop) [Decidable holds] (refusal : Refusal) : Except Refusal Unit :=
  if holds then .ok () else .error refusal

def orRefuse {A : Type} (found : Option A) (refusal : Refusal) : Except Refusal A :=
  found.elim (.error refusal) .ok

def maxRequestBodyBytes : ℕ := 4096

def maxFormRequestBodyBytes : ℕ := 128 * 1024

def maxBodyArrayItems : ℕ := 5000

def allowedBackfillContentTypes : List Units :=
  [units "application/json", units "application/x-www-form-urlencoded"]

/-- The bytes of an encoded text, in which a lone surrogate is a replacement character. -/
def encodedLength : Units → ℕ
  | high :: low :: rest =>
    if 0xD800 ≤ high && high ≤ 0xDBFF && 0xDC00 ≤ low && low ≤ 0xDFFF then 4 + encodedLength rest
    else (if high < 0x80 then 1 else if high < 0x800 then 2 else 3) + encodedLength (low :: rest)
  | [c] => if c < 0x80 then 1 else if c < 0x800 then 2 else 3
  | [] => 0

/-- The members of an object, each key once under its last value. -/
def entries (members : List (Units × Value)) : List (Units × Value) :=
  ((members.map Prod.fst).reverse.dedup.reverse).filterMap fun key =>
    members.reverse.find? fun x => x.1 = key

def isScalar : Value → Bool
  | .array _ | .object _ => false
  | _ => true

def isNonEmptyString : Value → Bool
  | .string s => s ≠ []
  | _ => false

/-- The query of a body request: pinned, or one key that carries what the plan's own URL has, or
none. -/
def checkDetailQuery (plan : BackfillEnumPlan) (u : Url) (segment : BackfillSegment) :
    Except Refusal Unit :=
  let noFragment := require (u.hash = [])
    (refuseUrl "body url carries a fragment the plan did not declare")
  let undeclared := refuseUrl "body url carries a query the plan did not declare"
  match if segment = .detail then plan.detailQueryPinned else none,
    if segment = .detail2 then none else plan.detailQueryKey with
  | some pinned, _ => do
    require (pinnedQueryMatches pinned u) undeclared
    noFragment
  | none, none => do
    require (u.search = []) undeclared
    noFragment
  | none, some key => do
    require (∀ x ∈ u.searchParams, x.1 = key)
      (refuseUrl "body url carries a query key outside the declared allow-list")
    match getAll u.searchParams key with
    | [value] =>
      require (value ≠ []) (refuseUrl "body url carries an empty value for the declared query key")
      require (plan.detailUrl.all fun detailUrl => u.href = detailUrl u.origin value)
        (refuseUrl "body url is not the one this plan itself builds")
    | _ => .error (refuseUrl "body url must carry the declared query key exactly once")

def checkAuxQuery (route : ListAuxPath) (u : Url) : Except Refusal Unit := do
  require (u.hash = []) (refuseUrl "list url carries a fragment")
  require ((∀ x ∈ u.searchParams, x.1 ∈ route.queryKeys) ∧ (u.searchParams.map Prod.fst).Nodup)
    (refuseUrl "list url carries an undeclared or repeated query key")
  require (∀ key ∈ route.requiredQueryKeys, key ∈ u.searchParams.map Prod.fst)
    (refuseUrl "list url is missing a required query key")

def checkPayload (spec : BackfillRequestSpec) (limit : ℕ) (name : String) (contentType : Units) :
    Except Refusal Units := do
  let body ← orRefuse spec.body (refuseRequest "POST request has no string body")
  require (encodedLength body ≤ limit) (refuseRequest ("request body exceeds " ++ name))
  require (spec.contentType = some contentType)
    (refuseRequest "content-type is not the one declared by the plan")
  require (contentType ∈ allowedBackfillContentTypes)
    (refuseRequest "content-type is not in the allowed set")
  return body

/-- One entry of a JSON body: a list of non-empty strings where the plan declares one, else a
scalar. -/
def checkEntry (post : PostKeySpec) (entry : Units × Value) : Except Refusal Unit := do
  require (entry.1 ∈ post.bodyKeys)
    (refuseRequest "request body has a key outside the declared allow-list")
  if entry.1 ∈ post.bodyArrayKeys then
    match entry.2 with
    | .array items =>
      require (items.length ≤ maxBodyArrayItems)
        (refuseRequest "request body array exceeds MAX_BODY_ARRAY_ITEMS")
      require (items.all isNonEmptyString)
        (refuseRequest "request body array holds a value that is not a non-empty string")
    | _ => .error (refuseRequest "request body value is not the declared array")
  else require (isScalar entry.2) (refuseRequest "request body value is not a scalar")

def checkKeysRequest (post : PostKeySpec) (spec : BackfillRequestSpec) : Except Refusal Unit := do
  let body ← checkPayload spec maxRequestBodyBytes "MAX_REQUEST_BODY_BYTES" post.contentType
  match ← orRefuse (parse body) (refuseRequest "request body is not JSON") with
  | .object members => (entries members).forM (checkEntry post)
  | _ => .error (refuseRequest "request body is not a JSON object")

/-- The batch holds one group of one call: an RPC of the plan, its arguments, null and the kind. -/
def checkFormBatch (post : FormPostSpec) (value : Units) : Except Refusal Unit := do
  match ← orRefuse (parse value) (refuseRequest "batch field is not JSON") with
  | .array [group] =>
    match group with
    | .array [call] =>
      match call with
      | .array [rpcid, args, envelope, kind] =>
        match rpcid with
        | .string rpcid =>
          require (rpcid ∈ post.rpcids) (refuseRequest "batch names an rpcid outside the declared set")
          match envelope, kind with
          | .null, .string kind =>
            require (kind = post.batchKind)
              (refuseRequest "batch call carries an envelope this plan does not build")
            match args with
            | .string args =>
              let args ← orRefuse (parse args) (refuseRequest "batch arguments are not JSON")
              match post.checkArgs rpcid args with
              | none => return
              | some refused => .error ⟨units "refused: " ++ refused, units "refused: " ++ refused⟩
            | _ => .error (refuseRequest "batch call carries no argument string")
          | _, _ => .error (refuseRequest "batch call carries an envelope this plan does not build")
        | _ => .error (refuseRequest "batch names an rpcid outside the declared set")
      | _ => .error (refuseRequest "batch call is not the declared four-element form")
    | _ => .error (refuseRequest "batch group does not hold exactly one call")
  | _ => .error (refuseRequest "batch does not hold exactly one group")

/-- One field of a form: there once, and empty unless it is the batch. -/
def checkField (fields : List (Units × Units)) (batchKey key : Units) : Except Refusal Unit :=
  match getAll fields key with
  | [value] => require (key = batchKey ∨ value = [])
      (refuseRequest "a form field this plan builds empty arrived with a value")
  | _ => .error (refuseRequest "request body must carry exactly one of each declared field")

def checkFormRequest (W : WebPlatform) (post : FormPostSpec) (spec : BackfillRequestSpec) (u : Url) :
    Except Refusal Unit := do
  require (u.hash = []) (refuseUrl "body url carries a fragment the plan did not declare")
  require (formQueryMatches post u) (refuseUrl "body url carries a query the plan did not declare")
  let body ← checkPayload spec maxFormRequestBodyBytes "MAX_FORM_REQUEST_BODY_BYTES" post.contentType
  let fields := W.formFields body
  require ((fields.map Prod.fst).dedup.length = post.bodyKeys.length)
    (refuseRequest "request body has a field outside the declared allow-list")
  post.bodyKeys.forM (checkField fields post.batchKey)
  checkFormBatch post ((getAll fields post.batchKey).head?.getD [])

end Checks

section Gate

structure Sent where
  url : Units
  method : Units
  body : Option Units
  contentType : Option Units
  deriving DecidableEq

def sanitiseMethod (method : Units) : Units :=
  if 16 < method.length then method.take 16 ++ units "…" else method

def checkResolve (spec : BackfillRequestSpec) (u : Url) : Except Refusal Sent := do
  require (u.search = [])
    (refuseUrl "the resolution-only path carries a query the plan did not declare")
  require (u.hash = [])
    (refuseUrl "the resolution-only path carries a fragment the plan did not declare")
  require (spec.method.getD (units "GET") = units "GET")
    (refuseRequest "the resolution-only path is a GET")
  require (spec.body = none ∧ spec.contentType = none)
    (refuseRequest "the resolution-only path carries a body or a content-type")
  return ⟨spec.url, units "GET", none, none⟩

def checkMethod (platform : Units) (plan : BackfillEnumPlan) (segment : BackfillSegment)
    (method : Units) : Except Refusal Unit := do
  let refuse (text : Units) : Refusal := ⟨units "refused: " ++ text, units "refused: " ++ text⟩
  require (method = units "GET" ∨ method = units "POST")
    (refuse (units "method " ++ sanitiseMethod method ++ units " is not in the allowed set"))
  require (method = expectedMethodFor plan segment)
    (refuse (platform ++ units (" " ++ segment.name ++ " segment must be ") ++
      expectedMethodFor plan segment ++ units ", got " ++ sanitiseMethod method))

/-- The body of a request, by what the plan declares for its segment. -/
def checkBody (W : WebPlatform) (spec : BackfillRequestSpec) (u : Url) :
    Option PostSpec → Except Refusal Sent
  | none => do
    require (spec.body = none) (refuseRequest "GET request must not carry a body")
    require (spec.contentType = none) (refuseRequest "GET request must not carry a content-type")
    return ⟨spec.url, units "GET", none, none⟩
  | some (.form post) => do
    checkFormRequest W post spec u
    return ⟨spec.url, units "POST", spec.body, spec.contentType⟩
  | some (.keys post) => do
    checkKeysRequest post spec
    return ⟨spec.url, units "POST", spec.body, spec.contentType⟩

/-- A form's query is pinned with its body, and a list's query is its own. -/
def checkQuery (plan : BackfillEnumPlan) (u : Url) (segment : BackfillSegment) :
    Except Refusal Unit :=
  match segment, postSpecFor plan segment with
  | .list, _ | _, some (.form _) => .ok ()
  | _, _ => checkDetailQuery plan u segment

def checkSegment (W : WebPlatform) (platform : Units) (plan : BackfillEnumPlan)
    (spec : BackfillRequestSpec) (u : Url) (segment : BackfillSegment) : Except Refusal Sent := do
  (auxListFor plan u).forM (checkAuxQuery · u)
  checkQuery plan u segment
  checkMethod platform plan segment (spec.method.getD (units "GET"))
  checkBody W spec u (postSpecFor plan segment)

def checkBackfillRequest (W : WebPlatform) (platforms : List ChatPlatform)
    (lookup : Units → Option BackfillEnumPlan) (spec : BackfillRequestSpec) (pageOrigin : Units)
    (scope : Option Units) : Except Refusal Sent := do
  let u ← orRefuse (W.url spec.url) (refuseUrl "url is not parseable")
  require (u.origin = pageOrigin) (refuseUrl "url is not same-origin with the page")
  let row ← orRefuse (platforms.find? fun p => u.origin ∈ p.origins)
    (refuseUrl "origin is not in the platform table")
  let plan ← orRefuse (lookup row.id)
    ⟨refusedUrlReason, units "platform " ++ row.id ++ units " has no backfill plan"⟩
  let segment ← orRefuse (segmentFor plan u scope) (refuseUrl "path is not a backfill endpoint")
  if segment = .resolve then checkResolve spec u
  else checkSegment W row.id plan spec u segment

end Gate

section Bind
variable {A B : Type} {b : B} {refusal : Refusal}

@[simp] lemma require_bind {p : Prop} [Decidable p] {k : Unit → Except Refusal B} :
    (require p refusal >>= k) = .ok b ↔ p ∧ k () = .ok b := by
  unfold require
  split <;> simp [*, bind, Except.bind]

@[simp] lemma orRefuse_bind {found : Option A} {k : A → Except Refusal B} :
    (orRefuse found refusal >>= k) = .ok b ↔ ∃ a, found = some a ∧ k a = .ok b := by
  cases found <;> simp [orRefuse, bind, Except.bind]

end Bind

section Confined

variable {W : WebPlatform} {spec : BackfillRequestSpec} {u : Url}

lemma checked_endpoint {platforms : List ChatPlatform} {lookup : Units → Option BackfillEnumPlan}
    {pageOrigin : Units} {scope : Option Units} {sent : Sent}
    (h : checkBackfillRequest W platforms lookup spec pageOrigin scope = .ok sent) :
    ∃ u, W.url spec.url = some u ∧ u.origin = pageOrigin ∧
      ∃ row, (platforms.find? fun p => u.origin ∈ p.origins) = some row ∧
        ∃ plan, lookup row.id = some plan ∧ ∃ segment, segmentFor plan u scope = some segment ∧
          (if segment = .resolve then checkResolve spec u
            else checkSegment W row.id plan spec u segment) = .ok sent := by
  unfold checkBackfillRequest at h
  simpa only [orRefuse_bind, require_bind] using h

end Confined

section Isolation

/-- A plan all of whose conversation paths carry the scope, as the same part of the path. -/
structure CarriesScope (plan : BackfillEnumPlan) (paths : ScopeInPathSpec) (place : ℕ) : Prop where
  scopeInPath : plan.scopeInPath = some paths
  list : (paths.listPath.splitOn (unit '/'))[place]? = some scopeIdToken
  detail : (paths.detailPath.splitOn (unit '/'))[place]? = some scopeIdToken
  listPath : unit '\x7b' ∈ plan.listPath
  detailPath : ∀ path ∈ plan.detailPath,
    unit '\x7b' ∈ path.take ((indexOf detailIdToken path).getD path.length)
  aux : plan.listAuxPaths = []
  listForm : plan.listTokenForm = none
  detailForm : plan.detailForm = none
  step2 : plan.detailStep2 = none

lemma scope_of_match {template pathname : Units} {scope : Option Units} {place : ℕ}
    (h : scopePathMatches template pathname scope = true)
    (hplace : (template.splitOn (unit '/'))[place]? = some scopeIdToken) :
    (pathname.splitOn (unit '/'))[place]? = scope := by
  unfold scopePathMatches at h
  simp only [Bool.and_eq_true, decide_eq_true_eq, List.all_eq_true] at h
  obtain ⟨hlength, hparts⟩ := h
  obtain ⟨hlt, htoken⟩ := List.getElem?_eq_some_iff.mp hplace
  have hfound : place < (pathname.splitOn (unit '/')).length := hlength ▸ hlt
  have hpart := hparts (scopeIdToken, (pathname.splitOn (unit '/'))[place]) (by
    rw [← htoken, ← List.getElem_zip (h := by rw [List.length_zip]; omega)]
    exact List.getElem_mem _)
  unfold partMatches at hpart
  simp only [if_true, Bool.and_eq_true, decide_eq_true_eq] at hpart
  rw [List.getElem?_eq_getElem hfound, hpart.2]

/-- A path without braces is not one under a template that has a brace before its id. -/
lemma detailPathMatches_of_brace {path pathname : Units} (hpath : unit '\x7b' ∉ pathname)
    (h : unit '\x7b' ∈ path.take ((indexOf detailIdToken path).getD path.length)) :
    detailPathMatches path pathname = false := by
  rw [Bool.eq_false_iff]
  intro hmatch
  apply hpath
  unfold detailPathMatches at hmatch
  cases hindex : indexOf detailIdToken path with
  | none =>
    rw [hindex, Option.getD_none, List.take_length] at h
    simp only [hindex] at hmatch
    split at hmatch
    · exact (of_decide_eq_true hmatch).subset h
    · rw [of_decide_eq_true hmatch]
      exact h
  | some tokenAt =>
    rw [hindex, Option.getD_some] at h
    simp only [hindex, Bool.and_eq_true, decide_eq_true_eq] at hmatch
    exact hmatch.1.1.1.subset h

variable {W : WebPlatform} {spec : BackfillRequestSpec} {plan : BackfillEnumPlan}
  {paths : ScopeInPathSpec} {place : ℕ} {scope scope' : Option Units} {u : Url}

/-- An endpoint of such a plan is the resolution path, or its path names the scope. -/
lemma CarriesScope.path_names (hplan : CarriesScope plan paths place) {segment : BackfillSegment}
    (h : segmentFor plan u scope = some segment) :
    u.pathname = paths.resolvePath ∨ (u.pathname.splitOn (unit '/'))[place]? = scope := by
  have hlist : u.pathname ≠ plan.listPath := fun heq => u.noBrace (heq ▸ hplan.listPath)
  have hdetail : plan.detailPath.any (detailPathMatches · u.pathname) = false := by
    cases hpath : plan.detailPath with
    | none => rfl
    | some path => exact detailPathMatches_of_brace u.noBrace (hplan.detailPath path hpath)
  unfold segmentFor at h
  simp only [hplan.scopeInPath, Option.any_some, formSegmentFor, hplan.listForm, hplan.detailForm,
    hplan.step2, auxListFor, hplan.aux, hlist, hdetail, Option.any_none, List.find?_nil,
    Option.isSome_none, Bool.false_eq_true, if_false, decide_eq_true_eq] at h
  split at h
  next hresolve => exact Or.inl hresolve
  next =>
    split at h
    next hmatch => exact Or.inr (scope_of_match hmatch hplan.list)
    next =>
      split at h
      next hmatch => exact Or.inr (scope_of_match hmatch hplan.detail)
      next => cases h

/-- For a plan whose paths carry the scope, a request is let through under one scope at most, unless
it asks which scope the page is in. -/
theorem scope_isolated {platforms : List ChatPlatform} {lookup : Units → Option BackfillEnumPlan}
    {pageOrigin : Units} {row : ChatPlatform} {sent sent' : Sent}
    (hrow : (platforms.find? fun p => pageOrigin ∈ p.origins) = some row)
    (hlookup : lookup row.id = some plan) (hplan : CarriesScope plan paths place)
    (h : checkBackfillRequest W platforms lookup spec pageOrigin scope = .ok sent)
    (h' : checkBackfillRequest W platforms lookup spec pageOrigin scope' = .ok sent') :
    scope = scope' ∨ ∃ u, W.url spec.url = some u ∧ u.pathname = paths.resolvePath := by
  have hnames : ∀ {scope sent}, checkBackfillRequest W platforms lookup spec pageOrigin scope =
      .ok sent → ∃ u, W.url spec.url = some u ∧
        (u.pathname = paths.resolvePath ∨ (u.pathname.splitOn (unit '/'))[place]? = scope) := by
    intro scope sent h
    obtain ⟨u, hurl, rfl, row', hrow', plan', hplan', segment, hsegment, -⟩ := checked_endpoint h
    obtain rfl := Option.some.inj (hrow.symm.trans hrow')
    obtain rfl := Option.some.inj (hlookup.symm.trans hplan')
    exact ⟨u, hurl, hplan.path_names hsegment⟩
  obtain ⟨u, hurl, hscope⟩ := hnames h
  obtain ⟨u', hurl', hscope'⟩ := hnames h'
  obtain rfl := Option.some.inj (hurl.symm.trans hurl')
  rcases hscope with hresolve | hscope
  · exact Or.inr ⟨u, hurl, hresolve⟩
  · rcases hscope' with hresolve | hscope'
    · exact Or.inr ⟨u, hurl, hresolve⟩
    · exact Or.inl (hscope.symm.trans hscope')

end Isolation

section Sample

def claudePaths : ScopeInPathSpec :=
  ⟨units "/api/organizations/\x7borg\x7d/chat_conversations",
    units "/api/organizations/\x7borg\x7d/chat_conversations/\x7bid\x7d",
    units "/api/organizations"⟩

def claudePlan : BackfillEnumPlan :=
  ⟨claudePaths.listPath, [], none, none, none, some claudePaths.detailPath, none, none, none, none, none,
    none, some claudePaths⟩

def claudeOrigin : Units := units "https://claude.ai"

/-- The address parser on what the plan builds under that origin, without a query. -/
def claudePage : WebPlatform where
  url text := if h : unit '\x7b' ∉ text.drop 17 then
    some ⟨text.take 17, text.drop 17, [], [], [], text, h⟩ else none
  formFields _ := []

def getOf (path : String) : BackfillRequestSpec := ⟨claudeOrigin ++ units path, none, none, none⟩

def sentGet (path : String) : Sent := ⟨claudeOrigin ++ units path, units "GET", none, none⟩

def checkClaude (path : String) (scope : Option Units) : Except Refusal Sent :=
  checkBackfillRequest claudePage [⟨units "claude", [claudeOrigin]⟩] (fun _ => some claudePlan)
    (getOf path) claudeOrigin scope

theorem scope_isolated_resolve : none = some (units "o1") ∨ ∃ u,
    claudePage.url (getOf "/api/organizations").url = some u ∧
      u.pathname = claudePaths.resolvePath := by
  have hsent : ∀ scope ∈ [none, some (units "o1")],
      checkClaude "/api/organizations" scope = .ok (sentGet "/api/organizations") := by
    decide +kernel
  have hplan : CarriesScope claudePlan claudePaths 3 := by
    refine ⟨rfl, by decide +kernel, by decide +kernel, by decide +kernel, ?_, rfl, rfl, rfl, rfl⟩
    rintro path ⟨⟩
    decide +kernel
  exact scope_isolated rfl rfl hplan (hsent none (by simp)) (hsent (some _) (by simp))

end Sample

end ChatStasher.RequestGate
