import Mathlib.Data.List.Nodup
import RemoteHost.Proofs.PartyMoves
import RemoteHost.Proofs.RoutineDiscipline

/-!
# Who an endpoint belongs to

An endpoint belongs to the party that opened it until it is closed or handed to a callback
operation. No service closes an endpoint of others, hands one over twice or keeps one when it is
over.
-/

namespace RemoteHost

variable {F : Type}

/-- The endpoints among those that nobody has claimed which a party opened. -/
def heldBy (unclaimed : List (Party × EndpointId)) (p : Party) : List EndpointId :=
  (unclaimed.filter (·.1 = p)).map (·.2)

/-- A party closes its own endpoints and hands over all that it has. New endpoints are new to it. -/
def ownership : Discipline F (List EndpointId) where
  allows held
    | .closeEndpoint endpoint => endpoint ∈ held
    | .launch _ endpoints slots _ =>
      endpoints.map (·.endpoint) = held ∧ endpoints.length = slots.length
    | _ => True
  expects held
    | .openEndpoint, .ok opened => opened.endpoint ∉ held
    | _, _ => True
  after held
    | .openEndpoint, .ok opened => held ++ [opened.endpoint]
    | .closeEndpoint endpoint, _ => held.filter (· ∉ [endpoint])
    | .launch _ endpoints _ _, _ => held.filter (· ∉ endpoints.map (·.endpoint))
    | _, _ => held

/-- A party that has something to do keeps to its own endpoints, and others have none. -/
def KeepsToOwn (held : List EndpointId) : Option (Engagement F) → Prop
  | some ⟨_, rest⟩ => ownership.Obeys (fun held _ => held = []) held rest
  | none => held = []

theorem ownership_ignoresRoundTrips (held : List EndpointId) :
    (ownership (F := F)).IgnoresRoundTrips held where
  enter _ _ := ⟨trivial, fun _ => rfl⟩
  submit _ := ⟨trivial, fun _ => rfl⟩
  collect := ⟨trivial, fun _ => rfl⟩
  complete _ := ⟨trivial, fun _ => rfl⟩
  record _ := ⟨trivial, fun _ => rfl⟩

theorem closeAll_owns {opened : List Opened} (hnodup : (opened.map (·.endpoint)).Nodup) :
    ownership.Obeys (fun held _ => held = []) (opened.map (·.endpoint))
      (closeAll opened : Job F Unit).run := by
  induction opened with
  | nil => rfl
  | cons first rest ih =>
    obtain ⟨hfirst, hrest⟩ := List.nodup_cons.mp hnodup
    refine Discipline.obeys_ask.mpr ⟨List.mem_cons_self, fun _ _ => ?_⟩
    have hleft : (first.endpoint :: rest.map (·.endpoint)).filter (· ∉ [first.endpoint]) =
        rest.map (·.endpoint) := by
      simp only [List.mem_singleton, List.filter_cons, not_true_eq_false, decide_false,
        Bool.false_eq_true, if_false]
      refine List.filter_eq_self.mpr fun e he => ?_
      exact decide_eq_true fun heq => hfirst (by rw [heq] at he; exact he)
    have hkept := ih hrest
    rw [← hleft] at hkept
    exact hkept

/-- Either as many endpoints were opened as there should be, or none is left. -/
def Opens (count : Nat) (held : List EndpointId) : Except Fault (List Opened) → Prop
  | .ok all => held = all.map (·.endpoint) ∧ held.Nodup ∧ all.length = count
  | .error _ => held = []

theorem openAll_owns (count : Nat) (opened : List Opened)
    (hnodup : (opened.map (·.endpoint)).Nodup) :
    ownership.Obeys (Opens (opened.length + count))
      (opened.map (·.endpoint)) (openAll opened count : Job F (List Opened)).run := by
  induction count generalizing opened with
  | zero => exact ⟨rfl, hnodup, rfl⟩
  | succ count ih =>
    refine Discipline.obeys_ask.mpr ⟨trivial, fun reply hreply => ?_⟩
    cases reply with
    | ok new =>
      have hmap : opened.map (·.endpoint) ++ [new.endpoint] = (opened ++ [new]).map (·.endpoint) :=
        by simp
      have hnew : ((opened ++ [new]).map (·.endpoint)).Nodup := by
        rw [← hmap]
        refine List.nodup_append.mpr ⟨hnodup, by simp, fun a ha b hb heq => hreply ?_⟩
        rwa [← List.mem_singleton.mp hb, ← heq]
      have hmore := ih _ hnew
      have hlength : (opened ++ [new]).length + count = opened.length + (count + 1) := by
        simp [Nat.add_assoc, Nat.add_comm 1]
      rw [← hmap, hlength] at hmore
      exact hmore
    | error fault =>
      refine (closeAll_owns hnodup).andThen ?_ (fun _ _ h => h)
      rintro held _ rfl
      rfl

/-- The slots of a template take as many tokens as it has places for them. -/
theorem substituteTokens_eq_ok (template : String) (tokens : List String)
    (h : Program.placeholders template = tokens.length) :
    ∃ source, Program.substituteTokens template tokens = .ok source := by
  simp [Program.substituteTokens, h]

theorem invoke_owns (s : Settings) (label template : String) (shape : ResultShape)
    (slots : List (Slot F)) (lineage : LineageId) :
    ownership.Obeys (fun held _ => held = []) []
      (invoke s label template shape slots lineage).run := by
  unfold invoke
  by_cases hcount : Program.placeholders template = slots.length
  · simp only [ne_eq, hcount, not_true_eq_false, if_false]
    refine Discipline.Obeys.andThen (Q := Opens (0 + slots.length))
      (openAll_owns slots.length [] List.nodup_nil) ?_ (fun _ _ h => h)
    rintro held opened ⟨rfl, hnodup, hlength⟩
    have hlength : opened.length = slots.length := by rw [hlength, Nat.zero_add]
    obtain ⟨source, hsource⟩ := substituteTokens_eq_ok template (opened.map (·.token))
      (by simpa [hlength] using hcount)
    rw [hsource]
    refine Discipline.obeys_pure.mpr ?_
    refine Discipline.Obeys.andThen
      (Q := fun held result => match result with
        | .ok _ => held = opened.map (·.endpoint)
        | .error _ => held = []) ?_ ?_ (fun _ _ h => h)
    · refine ((ownership_ignoresRoundTrips _).evaluate s source shape lineage).orElse
        (fun _ _ h => h) ?_
      rintro _ fault rfl
      refine (closeAll_owns hnodup).andThen ?_ (fun _ _ h => h)
      rintro held _ rfl
      rfl
    · rintro _ outcome rfl
      refine Discipline.obeys_ask.mpr ⟨⟨rfl, hlength⟩, fun _ _ => ?_⟩
      have hempty : (opened.map (·.endpoint)).filter (· ∉ opened.map (·.endpoint)) = [] := by
        simp
      exact hempty
  · simp only [ne_eq, hcount, not_false_eq_true, if_true]
    rfl

theorem service_owns (s : Settings) (service : Service F) :
    ownership.Obeys (fun held _ => held = []) [] (service.job s).run := by
  have hround := ownership_ignoresRoundTrips (F := F) []
  cases service with
  | evaluate expression shape lineage => exact hround.evaluate s expression shape lineage
  | installPrelude lineage => exact hround.installPrelude s lineage
  | invoke label template shape slots lineage =>
    exact invoke_owns s label template shape slots lineage
  | release lineage =>
    refine Discipline.obeys_ask.mpr ⟨trivial, fun keys _ => ?_⟩
    by_cases hkeys : keys.isEmpty
    · simp only [hkeys, if_true]
      rfl
    · simp only [hkeys, Bool.false_eq_true, if_false]
      refine (hround.evaluateAs s _ .value lineage readReleaseCount).orElse (fun _ _ h => h) ?_
      rintro _ fault rfl
      exact Discipline.obeys_ask.mpr ⟨trivial, fun _ _ => rfl⟩

/-! ## In a session -/

/-- No endpoint belongs to two, and every party keeps to its own. -/
structure Owned (c : Callbacks F) (busy : Party → Option (Engagement F)) : Prop where
  nodup : (c.unclaimed.map (·.2) ++ c.operations.flatMap (·.endpoints)).Nodup
  bounded : ∀ e ∈ c.unclaimed.map (·.2) ++ c.operations.flatMap (·.endpoints), e < c.board.length
  keeps : ∀ p, KeepsToOwn (heldBy c.unclaimed p) (busy p)

theorem mem_heldBy {unclaimed : List (Party × EndpointId)} {p : Party} {e : EndpointId} :
    e ∈ heldBy unclaimed p ↔ (p, e) ∈ unclaimed := by
  simp [heldBy]

theorem heldBy_filter (unclaimed : List (Party × EndpointId)) (es : List EndpointId)
    (p : Party) :
    heldBy (unclaimed.filter fun u => u.2 ∉ es) p = (heldBy unclaimed p).filter (· ∉ es) := by
  simp only [heldBy, List.filter_map, List.filter_filter, Function.comp_def]
  congr 2
  funext u
  exact Bool.and_comm _ _

namespace Owned

variable {c c' : Callbacks F} {busy busy' : Party → Option (Engagement F)} {p q : Party}
  {e : EndpointId} {es : List EndpointId}

theorem eq_of_mem (h : Owned c busy) (hp : e ∈ heldBy c.unclaimed p)
    (hq : e ∈ heldBy c.unclaimed q) : p = q := by
  have hnodup := (List.nodup_append.mp h.nodup).1
  have hinj := List.inj_on_of_nodup_map hnodup (mem_heldBy.mp hp) (mem_heldBy.mp hq) rfl
  exact congrArg Prod.fst hinj

theorem not_held {id : OperationId} {op : CallbackOperation F} (h : Owned c busy)
    (hop : c.operations[id]? = some op) (he : e ∈ op.endpoints) : e ∉ c.unclaimed.map (·.2) := by
  intro hu
  refine (List.nodup_append.mp h.nodup).2.2 e hu e ?_ rfl
  exact List.mem_flatMap.mpr ⟨op, List.mem_of_getElem? hop, he⟩

theorem endpoints_nodup {id : OperationId} {op : CallbackOperation F} (h : Owned c busy)
    (hop : c.operations[id]? = some op) : op.endpoints.Nodup := by
  have hnodup := (List.nodup_append.mp h.nodup).2.1
  exact (List.nodup_flatMap.mp hnodup).1 op (List.mem_of_getElem? hop)

theorem operation_eq {i j : OperationId} {op op' : CallbackOperation F} (h : Owned c busy)
    (hi : c.operations[i]? = some op) (hj : c.operations[j]? = some op')
    (he : e ∈ op.endpoints) (he' : e ∈ op'.endpoints) : i = j := by
  have hpairwise := List.pairwise_iff_getElem.mp
    (List.nodup_flatMap.mp (List.nodup_append.mp h.nodup).2.1).2
  obtain ⟨hilt, rfl⟩ := List.getElem?_eq_some_iff.mp hi
  obtain ⟨hjlt, rfl⟩ := List.getElem?_eq_some_iff.mp hj
  rcases Nat.lt_trichotomy i j with hlt | heq | hlt
  · exact (hpairwise i j hilt hjlt hlt he he').elim
  · exact heq
  · exact (hpairwise j i hjlt hilt hlt he' he).elim

/-- What parties have when endpoints are closed that others do not have. -/
theorem keeps_others (h : Owned c busy) (hes : ∀ e ∈ es, e ∉ heldBy c.unclaimed q) :
    KeepsToOwn ((heldBy c.unclaimed q).filter (· ∉ es)) (busy q) := by
  rw [List.filter_eq_self.mpr]
  · exact h.keeps q
  · exact fun e he => decide_eq_true fun hmem => hes e hmem he

/-- What parties have when one of them loses some of its endpoints. -/
theorem keeps_update (h : Owned c busy) (hes : ∀ e ∈ es, e ∈ heldBy c.unclaimed p)
    {engagement : Option (Engagement F)}
    (hp : KeepsToOwn ((heldBy c.unclaimed p).filter (· ∉ es)) engagement) (q : Party) :
    KeepsToOwn ((heldBy c.unclaimed q).filter (· ∉ es))
      (Function.update busy p engagement q) := by
  by_cases hq : q = p
  · subst hq
    rwa [Function.update_self]
  · rw [Function.update_of_ne hq]
    exact h.keeps_others fun e he hmem => hq (h.eq_of_mem hmem (hes e he))

theorem shut (h : Owned c busy) (hshut : Callbacks.Shut es c c')
    (hkeeps : ∀ p, KeepsToOwn ((heldBy c.unclaimed p).filter (· ∉ es)) (busy' p)) :
    Owned c' busy' where
  nodup := by
    rw [hshut.unclaimed, hshut.operations]
    exact h.nodup.sublist (List.filter_sublist.map _ |>.append_right _)
  bounded e he := by
    rw [hshut.unclaimed, hshut.operations] at he
    rw [hshut.length]
    exact h.bounded e ((List.filter_sublist.map _ |>.append_right _).subset he)
  keeps p := by
    rw [hshut.unclaimed, heldBy_filter]
    exact hkeeps p

theorem setBusy (h : Owned c busy) {engagement : Option (Engagement F)}
    (hp : KeepsToOwn (heldBy c.unclaimed p) engagement) :
    Owned c (Function.update busy p engagement) where
  nodup := h.nodup
  bounded := h.bounded
  keeps q := by
    by_cases hq : q = p
    · subst hq
      simpa using hp
    · simpa [hq] using h.keeps q

theorem not_bounded (h : Owned c busy) :
    c.board.length ∉ c.unclaimed.map (·.2) ++ c.operations.flatMap (·.endpoints) :=
  fun hmem => Nat.lt_irrefl _ (h.bounded _ hmem)

theorem opening (h : Owned c busy) {board : Board} (hlength : board.length = c.board.length + 1)
    {engagement : Option (Engagement F)}
    (hp : KeepsToOwn (heldBy c.unclaimed p ++ [c.board.length]) engagement) :
    Owned { c with board, unclaimed := c.unclaimed ++ [(p, c.board.length)] }
      (Function.update busy p engagement) where
  nodup := by
    have hperm : ((c.unclaimed ++ [(p, c.board.length)]).map (·.2) ++
        c.operations.flatMap (·.endpoints)).Perm
        (c.board.length :: (c.unclaimed.map (·.2) ++ c.operations.flatMap (·.endpoints))) := by
      simp
    exact hperm.nodup_iff.mpr (List.nodup_cons.mpr ⟨h.not_bounded, h.nodup⟩)
  bounded e he := by
    have hcases : e = c.board.length ∨
        e ∈ c.unclaimed.map (·.2) ++ c.operations.flatMap (·.endpoints) := by
      simp only [List.map_append, List.mem_append, List.map_cons, List.map_nil,
        List.mem_singleton] at he ⊢
      tauto
    have hbound : e ≤ c.board.length := by
      rcases hcases with rfl | hold
      · exact Nat.le_refl _
      · exact Nat.le_of_lt (h.bounded e hold)
    exact hlength ▸ Nat.lt_succ_of_le hbound
  keeps q := by
    by_cases hq : q = p
    · subst hq
      simpa [heldBy] using hp
    · have hne : ¬p = q := fun heq => hq heq.symm
      simpa [heldBy, hq, hne] using h.keeps q

theorem launching (h : Owned c busy) {op : CallbackOperation F}
    (hop : op.endpoints = heldBy c.unclaimed p) {engagement : Option (Engagement F)}
    (hp : KeepsToOwn ((heldBy c.unclaimed p).filter (· ∉ op.endpoints)) engagement) :
    Owned { c with
        unclaimed := c.unclaimed.filter fun u => u.2 ∉ op.endpoints
        operations := c.operations ++ [op] }
      (Function.update busy p engagement) where
  nodup := by
    obtain ⟨hunclaimed, hoperations, hdisjoint⟩ := List.nodup_append.mp h.nodup
    have hsub : op.endpoints.Sublist (c.unclaimed.map (·.2)) := by
      rw [hop]
      exact List.filter_sublist.map _
    have hnew : (c.operations.flatMap (·.endpoints) ++ op.endpoints).Nodup :=
      List.nodup_append.mpr ⟨hoperations, hunclaimed.sublist hsub, fun e he f hf heq =>
        hdisjoint f (hsub.subset hf) e he heq.symm⟩
    rw [List.flatMap_append, List.flatMap_singleton]
    refine List.nodup_append.mpr ⟨hunclaimed.sublist (List.filter_sublist.map _), hnew, ?_⟩
    rintro e he f hf rfl
    obtain ⟨u, hu, rfl⟩ := List.mem_map.mp he
    rcases List.mem_append.mp hf with hf | hf
    · exact hdisjoint _ (List.mem_map_of_mem (List.mem_filter.mp hu).1) _ hf rfl
    · simp [hf] at hu
  bounded e he := by
    refine h.bounded e ?_
    rw [List.flatMap_append, List.flatMap_singleton] at he
    rcases List.mem_append.mp he with he | he
    · exact List.mem_append_left _ ((List.filter_sublist.map _).subset he)
    · rcases List.mem_append.mp he with he | he
      · exact List.mem_append_right _ he
      · rw [hop] at he
        exact List.mem_append_left _ (List.mem_map_of_mem (mem_heldBy.mp he))
  keeps q := by
    rw [heldBy_filter]
    exact h.keeps_update (fun e he => hop ▸ he) hp q

theorem congr (h : Owned c busy) (hunclaimed : c'.unclaimed = c.unclaimed)
    (hlength : c'.board.length = c.board.length)
    (hoperations : c'.operations.map (·.endpoints) = c.operations.map (·.endpoints)) :
    Owned c' busy where
  nodup := by
    have hnodup := h.nodup
    simp only [List.flatMap_def] at hnodup ⊢
    rwa [hunclaimed, hoperations]
  bounded e he := by
    rw [hlength]
    refine h.bounded e ?_
    simp only [List.flatMap_def] at he ⊢
    rwa [hunclaimed, hoperations] at he
  keeps p := by
    rw [hunclaimed]
    exact h.keeps p

theorem ends (h : Owned c busy) {id : OperationId} {op op' : CallbackOperation F}
    {ending : Ending} (hop : c.operations[id]? = some op) (hsame : op'.endpoints = op.endpoints)
    (hends : Callbacks.Ends id op' ending c c') : Owned c' busy := by
  obtain ⟨c₁, hshut, rfl⟩ := hends
  have hclosed : Owned c₁ busy := by
    refine h.shut hshut fun p => h.keeps_others fun e he hheld => ?_
    exact h.not_held hop (hsame ▸ he) (List.mem_map_of_mem (mem_heldBy.mp hheld))
  refine hclosed.congr rfl rfl ?_
  rw [hshut.operations]
  exact Callbacks.map_modify hop hsame

end Owned

/-! ## In a scene -/

namespace Scene

variable {behave : Behaviour F} {w : Scene F}

theorem owned_start (settings : Settings) (host : Host) :
    Owned (start settings host : Scene F).session.callbacks
      (start settings host : Scene F).busy where
  nodup := List.nodup_nil
  bounded := by simp [start, Session.callbacks]
  keeps _ := rfl

theorem endpoints_started (label : String) (parent : LineageId) {slots : List (Slot F)}
    {endpoints : List Opened} (h : endpoints.length = slots.length) :
    (CallbackOperation.started label endpoints slots parent).endpoints =
      endpoints.map (·.endpoint) := by
  have hzip : (slots.zip endpoints).map Prod.snd = endpoints :=
    List.map_snd_zip (Nat.le_of_eq h)
  calc (CallbackOperation.started label endpoints slots parent).endpoints
      = ((slots.zip endpoints).map Prod.snd).map (·.endpoint) := by
        simp [CallbackOperation.endpoints, CallbackOperation.started]
    _ = endpoints.map (·.endpoint) := by rw [hzip]

/-- What can happen in a scene. -/
inductive Moved (w : Scene F) : Move F → Scene F → Prop where
  | calm {move : Move F} {session : Session F} {p : Party} {engagement : Option (Engagement F)}
      {occurrences : List (Occurrence F)} (hsame : session.callbacks = w.session.callbacks)
      (hcalm : ∀ o ∈ occurrences, o.isCalm = true)
      (hkeeps : KeepsToOwn (heldBy w.session.unclaimed p) engagement) :
      Moved w move ⟨session, Function.update w.busy p engagement, w.history ++ occurrences⟩
  | opened {move : Move F} {session : Session F} {p : Party} {engagement : Option (Engagement F)}
      {token : String} {occurrences : List (Occurrence F)}
      (hsession : session.callbacks = { w.session.callbacks with
        board := ((w.session.board.disown token).openLine token).2
        unclaimed := w.session.unclaimed ++ [(p, w.session.board.length)] })
      (hcalm : ∀ o ∈ occurrences, o.isCalm = true)
      (hkeeps : KeepsToOwn (heldBy w.session.unclaimed p ++ [w.session.board.length]) engagement) :
      Moved w move ⟨session, Function.update w.busy p engagement, w.history ++ occurrences⟩
  /-- A party closed endpoints of its own, one after another or all at once. -/
  | closed {move : Move F} {session : Session F} {p : Party} {engagement : Option (Engagement F)}
      {endpoints : List EndpointId} {occurrences : List (Occurrence F)}
      (hheld : ∀ e ∈ endpoints, e ∈ heldBy w.session.unclaimed p)
      (hsession : Callbacks.Shut endpoints w.session.callbacks session.callbacks)
      (hclosing : ∀ o ∈ occurrences, o.isCalm = true ∨
        ∃ e ∈ endpoints, o = .asked p (.closeEndpoint e) ())
      (hkeeps : KeepsToOwn ((heldBy w.session.unclaimed p).filter (· ∉ endpoints)) engagement) :
      Moved w move ⟨session, Function.update w.busy p engagement, w.history ++ occurrences⟩
  | launched {move : Move F} {session : Session F} {p : Party} {engagement : Option (Engagement F)}
      {label : String} {endpoints : List Opened} {slots : List (Slot F)} {parent : LineageId}
      {occurrences : List (Occurrence F)}
      (hheld : endpoints.map (·.endpoint) = heldBy w.session.unclaimed p)
      (hlength : endpoints.length = slots.length)
      (hsession : session.callbacks = { w.session.callbacks with
        unclaimed := w.session.unclaimed.filter fun u => u.2 ∉ endpoints.map (·.endpoint)
        operations := w.session.operations ++ [.started label endpoints slots parent] })
      (hcalm : ∀ o ∈ occurrences, o.isCalm = true)
      (hkeeps : KeepsToOwn ((heldBy w.session.unclaimed p).filter
        (· ∉ endpoints.map (·.endpoint))) engagement) :
      Moved w move ⟨session, Function.update w.busy p engagement, w.history ++ occurrences⟩
  | arrived {move : Move F} {session : Session F} {e : EndpointId} {payload : Json}
      (hopen : w.session.board.isOpen e = true)
      (hconnected : Board.isConnected w.session.board e = true)
      (hsession : session.callbacks = { w.session.callbacks with
        board := w.session.board.modify e fun e => { e with inbox := e.inbox ++ [payload] } }) :
      Moved w move { w with session, history := w.history ++ [.arrived e payload] }
  | disconnected {move : Move F} {session : Session F} {e : EndpointId}
      (hsession : session.callbacks = { w.session.callbacks with
        board := w.session.board.modify e fun e => { e with connected := false } }) :
      Moved w move { w with session }
  | told {move : Move F} {session : Session F} {operations : List (CallbackOperation F)}
      (htold : Callbacks.Told w.session.operations operations)
      (hsession : session.callbacks = { w.session.callbacks with operations }) :
      Moved w move { w with session }
  | turned {move : Move F} {id : OperationId} {op : CallbackOperation F} {w' : Scene F}
      (hop : w.session.operations[id]? = some op) (hturn : Turn w id op move w') :
      Moved w move w'

/-- Nothing may happen at all. -/
theorem Moved.still {move : Move F} {session : Session F} (h : Owned w.session.callbacks w.busy)
    (hsame : session.callbacks = w.session.callbacks) : Moved w move { w with session } := by
  have hcalm : Moved w move ⟨session, Function.update w.busy .foreground (w.busy .foreground),
      w.history ++ []⟩ := .calm hsame (by simp) (h.keeps .foreground)
  rwa [Function.update_eq_self, List.append_nil] at hcalm

theorem moved_of_asked (h : Owned w.session.callbacks w.busy) {p : Party} {service : Service F}
    {request : Request F} {next : request.Reply → Routine F (Except Fault service.Result)}
    {reply : request.Reply} {session : Session F}
    (hbusy : w.busy p = some ⟨service, .ask request next⟩)
    (hanswered : Answered w.session.callbacks p request reply session.callbacks) :
    Moved w (.go p) ⟨session, Function.update w.busy p (some ⟨service, next reply⟩),
      w.history ++ [.asked p request reply]⟩ := by
  have hkeeps := h.keeps p
  rw [hbusy] at hkeeps
  obtain ⟨hallowed, hnext⟩ := hkeeps
  cases request with
  | openEndpoint =>
    cases reply with
    | error fault =>
      exact .calm hanswered (by simp [Occurrence.isCalm]) (hnext (.error fault) trivial)
    | ok opened =>
      obtain ⟨endpoint, token⟩ := opened
      obtain ⟨rfl, hsession⟩ := hanswered
      have hnew : w.session.board.length ∉ heldBy w.session.unclaimed p := fun hmem =>
        h.not_bounded (List.mem_append_left _ (List.mem_map_of_mem (mem_heldBy.mp hmem)))
      exact .opened hsession (by simp [Occurrence.isCalm]) (hnext (.ok ⟨_, token⟩) hnew)
  | closeEndpoint endpoint =>
    refine .closed (fun e he => ?_) hanswered (fun o ho => .inr ?_) (hnext () trivial)
    · rwa [List.mem_singleton.mp he]
    · exact ⟨endpoint, List.mem_singleton_self _, List.mem_singleton.mp ho⟩
  | launch label endpoints slots parent =>
    exact .launched hallowed.1 hallowed.2 hanswered.2 (by simp [Occurrence.isCalm])
      (hnext _ trivial)
  | _ => exact .calm hanswered (by simp [Occurrence.isCalm]) (hnext reply trivial)

theorem moved_of_acted (h : Owned w.session.callbacks w.busy) {move : Move F} {w' : Scene F}
    (hacted : Acted w move w') : Moved w move w' := by
  cases hacted with
  | still hmove hsame => exact .still h hsame
  | @began p service hfree =>
    have hheld := h.keeps p
    rw [busy_of_isFree hfree] at hheld
    have hheld : heldBy w.session.unclaimed p = [] := hheld
    refine .calm rfl (by simp [Occurrence.isCalm]) ?_
    rw [hheld]
    exact service_owns _ service
  | asked hbusy hanswered => exact moved_of_asked h hbusy hanswered
  | @gained p service result hbusy =>
    have hkeeps := h.keeps p
    rw [hbusy] at hkeeps
    exact .calm rfl (by simp [Occurrence.isCalm]) hkeeps
  | abandoned hbusy hshut =>
    refine .closed (fun e he => he) hshut (by simp [Occurrence.isCalm]) ?_
    exact List.filter_eq_nil_iff.mpr fun e he => by simpa using he
  | arrived hopen hconnected hsession => exact .arrived hopen hconnected hsession
  | disconnected hsession => exact .disconnected hsession
  | told htold hsession => exact .told htold hsession
  | turned hmove hop hturn => exact .turned hop hturn

theorem moved_act (h : Owned w.session.callbacks w.busy) (move : Move F) :
    Moved w move (w.act behave move) :=
  moved_of_acted h (acted_act behave w move)

theorem owned_of_turn (h : Owned w.session.callbacks w.busy) {id : OperationId}
    {op : CallbackOperation F} (hop : w.session.operations[id]? = some op) {move : Move F}
    {w' : Scene F} (hturn : Turn w id op move w') :
    Owned w'.session.callbacks w'.busy := by
  cases hturn with
  | idle => exact h
  | deafened hstage hget hover hsession =>
    exact hsession ▸ h.congr rfl rfl (Callbacks.map_modify hop (op.endpoints_deafen _))
  | refused hstage hget hlistening hseen hrefused hsession =>
    exact hsession ▸ h.congr rfl (Board.length_take ..) rfl
  | called hstage hget hlistening hseen haccepted hcall hsession =>
    exact hsession ▸ h.congr rfl (Board.length_take ..) (Callbacks.map_modify hop rfl)
  | resumed hstage hcall hsession =>
    exact hsession ▸ h.congr rfl rfl (Callbacks.map_modify hop rfl)
  | fired hstage hcall hends =>
    have hsame : op.resumed.endpoints = op.endpoints := rfl
    exact h.ends hop hsame hends
  | died hstage hends | stopped hstage hends => exact h.ends hop rfl hends
  | exhausted hstage hdeaf hends => exact h.ends hop rfl hends

theorem owned_of_moved (h : Owned w.session.callbacks w.busy) {move : Move F}
    {w' : Scene F} (hmoved : Moved w move w') : Owned w'.session.callbacks w'.busy := by
  cases hmoved with
  | calm hsame hcalm hkeeps =>
    rw [hsame]
    exact h.setBusy hkeeps
  | opened hsession hcalm hkeeps =>
    rw [hsession]
    exact h.opening (by simp [Session.callbacks]) hkeeps
  | closed hheld hsession hclosing hkeeps =>
    exact h.shut hsession (h.keeps_update hheld hkeeps)
  | @launched _ _ _ label _ _ parent _ hheld hlength hsession _ hkeeps =>
    have hendpoints := endpoints_started label parent hlength
    rw [← hendpoints] at hheld hsession hkeeps
    rw [hsession]
    exact h.launching hheld hkeeps
  | arrived hopen hconnected hsession =>
    exact hsession ▸ h.congr rfl (List.length_modify ..) rfl
  | disconnected hsession => exact hsession ▸ h.congr rfl (List.length_modify ..) rfl
  | told htold hsession => exact hsession ▸ h.congr rfl rfl (htold.map fun _ => rfl)
  | turned hop hturn => exact owned_of_turn h hop hturn

theorem owned_run (settings : Settings) (host : Host) (moves : List (Move F)) :
    Owned ((start settings host).run behave moves).session.callbacks
      ((start settings host).run behave moves).busy :=
  run_induction (P := fun w => Owned w.session.callbacks w.busy) (owned_start settings host)
    (fun _ move h => owned_of_moved h (moved_act h move)) moves

end Scene

end RemoteHost
