import SqlxMssql.Connection.Recovery
import SqlxMssql.Text.Renumbering

/-! # What is executed and what was described

Describing a statement and executing it rewrite its text separately. Which requests either
of them sends is a frame over its calls; a text whose markers are counted to zero is its
own rewriting.
-/
namespace SqlxMssql
open Loops Utf8 Interaction ParamMarkers

variable {δ α : Type} (engine : SqlEngine δ) (features : Features)

/-- The statements that are run satisfy `P`. -/
def sendingFrame (δ : Type) (P : ClientCall → Prop) : Frame (Session δ) where
  rel s t := ∃ made, t.trace = s.trace ++ made ∧ ∀ c ∈ calls made, c.1.IsRequest → P c.1
  refl s := ⟨[], (List.append_nil _).symm, by simp [calls]⟩
  trans := by
    rintro s t u ⟨made, hmade, hsent⟩ ⟨more, hmore, hlater⟩
    refine ⟨made ++ more, by rw [hmore, hmade, List.append_assoc], fun c hc => ?_⟩
    rw [calls_append] at hc
    exact (List.mem_append.mp hc).elim (hsent c) (hlater c)

section Sending
variable {engine} {P : ClientCall → Prop}

theorem call_within_sendingFrame {p : PendingCall δ α} (h : p.call.IsRequest → P p.call) (context : String) :
    Within (sendingFrame δ P) (call engine p context) := by
  have hmade (outcome : CallOutcome) :
      ∀ c ∈ calls [.called p.call outcome], c.1.IsRequest → P c.1 := by
    simpa [calls] using h
  exact Within.of_call (fun _ _ _ => ⟨_, rfl, hmade _⟩) fun _ _ outcome => ⟨_, rfl, hmade outcome⟩

theorem ClientCall.Reads.not_request {c : ClientCall} (h : c.Reads) : ¬ c.IsRequest := by
  cases c with
  | closeQuery | advance | advanceToRows | nextRow => exact id
  | _ => exact absurd h id

theorem admitsReading_sendingFrame : AdmitsReading engine (sendingFrame δ P) where
  reading c hc _ _ := call_within_sendingFrame fun hrequest => absurd hrequest hc.not_request
  yieldItem item := by
    have hyield : ∀ c ∈ calls [.yielded item], c.1.IsRequest → P c.1 := by simp [calls]
    refine Within.suspend (fun s => ⟨_, rfl, hyield⟩) fun event s => ?_
    cases event with
    | answered | refused | cut => exact ⟨_, rfl, hyield⟩
  needsReset _ s := (sendingFrame δ P).refl s

theorem drainPending_within_sendingFrame : Within (sendingFrame δ P) (drainPending engine) := by
  refine Within.bind (Within.bind Within.get fun _ => Within.when ?_) fun _ =>
    Within.bind Within.get fun _ => Within.when ?_
  · exact Within.bind (Within.update (sendingFrame δ P).refl) fun _ => call_within_sendingFrame (absurd · id) _
  · exact Within.bind (Within.update (sendingFrame δ P).refl) fun _ => call_within_sendingFrame (absurd · id) _

theorem collectRows_within_sendingFrame {request : Request} (h : P (.executeSpExecutesql request)) :
    Within (sendingFrame δ P) (collectRows engine request) :=
  Within.bind drainPending_within_sendingFrame fun _ =>
    Within.bind (call_within_sendingFrame (fun _ => h) _) fun _ => admitsReading_sendingFrame.readFirstRows _ _ _ _

theorem sendingFrame_since {s t : Session δ} (h : (sendingFrame δ P).rel s t) :
    ∀ c ∈ calls (s.since t), c.1.IsRequest → P c.1 := by
  obtain ⟨made, hmade, hsent⟩ := h
  rwa [calls_since made hmade]

end Sending

/-- The call passes the text to the server to be described. -/
def ClientCall.Describes (rewritten : Text) : ClientCall → Prop
  | executeSpExecutesql request => request.params.head? = some (nvarcharParameter "@P1" rewritten)
  | _ => False

def DescribedStatement.parameterCount (d : DescribedStatement) : ℕ := d.parameters.elim List.length id

section Describe
variable {sql rewritten : Text} {markers : ℕ} (h : rewriteParamMarkers sql = .ok (rewritten, markers))
include h

theorem describeStatement_sends : Within (sendingFrame δ (·.Describes rewritten))
    (describeStatement engine features sql) := by
  have hfirst (declarations : Text) :
      ClientCall.Describes rewritten (.executeSpExecutesql (firstResultSetRequest rewritten declarations)) := by
    rw [firstResultSetRequest]
    split
    · rfl
    · rfl
  have hinfer : Within (sendingFrame δ (·.Describes rewritten)) (inferParameters engine features rewritten) :=
    Within.bind (collectRows_within_sendingFrame rfl) fun _ => Within.lift _
  simp only [describeStatement, h]
  change Within _ ((if 0 < markers then inferParameters engine features rewritten
    else pure ⟨[], some []⟩) >>= _)
  apply Within.bind (Within.ite hinfer (Within.pure _))
  intro inferred
  apply Within.bind (collectRows_within_sendingFrame (hfirst _))
  intro _
  exact Within.bind (Within.lift _) fun _ => Within.pure _

theorem describeStatement_counts : Returns (fun _ => True) (describeStatement (δ := δ) engine features sql)
    fun d _ => d.parameterCount = markers := by
  simp only [describeStatement, h]
  change Returns _ ((if 0 < markers then inferParameters engine features rewritten
    else pure ⟨[], some []⟩) >>= _) _
  refine Returns.bind Returns.any fun inferred => Returns.bind Returns.any fun _ =>
    Returns.bind Returns.any fun columns => Returns.pure fun _ _ => ?_
  cases htypes : inferred.types with
  | none => rfl
  | some types =>
    by_cases hcount : types.length = markers
    · simp [DescribedStatement.parameterCount, hcount]
    · simp [DescribedStatement.parameterCount, hcount]

end Describe

/-- The call that runs a request. -/
def Request.call (request : Request) : ClientCall :=
  if request.params.isEmpty then .execute request.sql else .executeSpExecutesql request

/-- A stream runs the request that has been built, and nothing when none has been built. -/
theorem fetchMany_sends (sql : Text) (arguments : Option (List SqlType)) :
    Within (sendingFrame δ fun c => ∃ request, buildRequest sql arguments = .ok (.ok request) ∧ c = request.call)
      (fetchMany engine sql (.ok arguments)) := by
  change Within _ (drainPending engine >>= fun _ => lift (buildRequest sql arguments) >>= _)
  apply Within.bind drainPending_within_sendingFrame
  intro _
  rcases hbuild : buildRequest sql arguments with a | e | request
  · exact fun s es => (sendingFrame δ _).refl s
  · exact fun s es => (sendingFrame δ _).refl s
  · change Within _ (call engine (if request.params.isEmpty then TdsClient.execute engine request.sql
      else TdsClient.executeSpExecutesql engine request) "query failed" >>= _)
    refine Within.bind (call_within_sendingFrame (fun _ => ⟨request, rfl, ?_⟩) _) fun result =>
      admitsReading_sendingFrame.fetchResults result
    rw [Request.call]
    split
    · rfl
    · rfl

/-- The request is the described text, with one parameter for each marker in order. -/
structure Request.Carries (request : Request) (rewritten : Text) (markers : ℕ) (values : List SqlType) : Prop where
  text : request.sql = rewritten
  count : request.params.length = markers
  params : ∀ (i : ℕ) (value : SqlType), values[i]? = some value →
    request.params[i]? = some ⟨parameterName (i + 1), value⟩

/-- A request is built exactly for as many arguments as markers have been counted. -/
structure MatchesDescription (rewritten : Text) (markers : ℕ) (values : List SqlType)
    (built : Except SqlxError Request) : Prop where
  accepts : (∃ request, built = .ok request) ↔ markers = values.length
  carries : ∀ request, built = .ok request → request.Carries rewritten markers values

theorem carries_named {rewritten : Text} {values : List SqlType} :
    (Request.mk rewritten (values.zipIdx.map fun (value, index) => ⟨"@P".toList ++ decimal (index + 1), value⟩)).Carries
      rewritten values.length values where
  text := rfl
  count := by simp
  params i value hvalue := by simp [hvalue, parameterName]

/-- Building agrees with the description unless there are markers and no arguments. -/
theorem buildRequest_matches_iff {sql rewritten : Text} {markers : ℕ}
    (h : rewriteParamMarkers sql = .ok (rewritten, markers)) (hcopy : markers = 0 → rewritten = sql)
    (arguments : Option (List SqlType)) : ∃ built, buildRequest sql arguments = .ok built ∧
      (MatchesDescription rewritten markers (arguments.getD []) built ↔ arguments.getD [] ≠ [] ∨ markers = 0) := by
  rw [buildRequest]
  cases hvalues : arguments.getD [] with
  | nil =>
    refine ⟨_, rfl, ?_⟩
    constructor
    · intro hmatch
      exact .inr (hmatch.accepts.mp ⟨_, rfl⟩)
    · rintro (hnone | rfl)
      · exact absurd rfl hnone
      · obtain rfl := hcopy rfl
        exact ⟨iff_of_true ⟨_, rfl⟩ rfl, by rintro _ ⟨⟩; exact ⟨rfl, rfl, by simp⟩⟩
  | cons value values =>
    simp only [h, ok_bind]
    by_cases hcount : markers = (value :: values).length
    · subst hcount
      refine ⟨_, if_neg (fun hne => hne rfl), iff_of_true ?_ (.inl (List.cons_ne_nil _ _))⟩
      exact ⟨iff_of_true ⟨_, rfl⟩ rfl, by rintro _ ⟨⟩; exact carries_named⟩
    · refine ⟨_, if_pos hcount, iff_of_true ?_ (.inl (List.cons_ne_nil _ _))⟩
      exact ⟨iff_of_false (by rintro ⟨_, ⟨⟩⟩) hcount, by rintro _ ⟨⟩⟩

/-- What is executed is what was described, exactly unless the text has markers and there
are no arguments. -/
theorem executed_as_described_iff (sql : Text) (arguments : Option (List SqlType)) :
    ∃ rewritten markers built, rewriteParamMarkers sql = .ok (rewritten, markers) ∧
      buildRequest sql arguments = .ok built ∧
      (∀ (s : Session δ) (es : List Event),
        let o := describeStatement engine features sql s es
        (∀ c ∈ calls (s.since o.state), c.1.IsRequest → c.1.Describes rewritten) ∧
          ∀ d, o.exit = .returned d → d.parameterCount = markers) ∧
      (∀ (s : Session δ) (es : List Event),
        ∀ c ∈ calls (s.since (fetchMany engine sql (.ok arguments) s es).state), c.1.IsRequest →
          ∃ request, built = .ok request ∧ c.1 = request.call) ∧
      (MatchesDescription rewritten markers (arguments.getD []) built ↔ arguments.getD [] ≠ [] ∨ markers = 0) := by
  obtain ⟨rewritten, markers, hrewrite, hrenumbered⟩ := rewriteParamMarkers_returns sql
  obtain ⟨built, hbuilt, hmatches⟩ := buildRequest_matches_iff hrewrite hrenumbered.unchanged arguments
  refine ⟨rewritten, markers, built, hrewrite, hbuilt, fun s es => ⟨?_, fun d hreturned => ?_⟩, fun s es => ?_,
    hmatches⟩
  · exact sendingFrame_since (describeStatement_sends engine features hrewrite s es)
  · rcases hrun : describeStatement engine features sql s es with ⟨exit, t, rest⟩
    rw [hrun] at hreturned
    subst hreturned
    exact describeStatement_counts engine features hrewrite s es d t rest trivial hrun
  · have hsends := sendingFrame_since (fetchMany_sends engine sql arguments s es)
    simpa [hbuilt] using hsends

/-- A statement with markers is sent as it is when no argument is bound. -/
theorem unbound_markers_sent :
    let sent := (fetchMany countingEngine "SELECT ?, ?".toList (.ok none) (Session.connected 0)
      [.answered]).state
    rewriteParamMarkers "SELECT ?, ?".toList = .ok ("SELECT @P1, @P2".toList, 2) ∧
      buildRequest "SELECT ?, ?".toList none = .ok (.ok ⟨"SELECT ?, ?".toList, []⟩) ∧
      (calls sent.trace).head? = some (.execute "SELECT ?, ?".toList, .answered) ∧
      ¬ MatchesDescription "SELECT @P1, @P2".toList 2 [] (.ok ⟨"SELECT ?, ?".toList, []⟩) := by
  refine ⟨by decide +kernel, rfl, by decide +kernel, fun hmatch => ?_⟩
  exact absurd (hmatch.accepts.mp ⟨_, rfl⟩) (by decide)

end SqlxMssql
