import RemoteHost.Proofs.QueryTalks
import RemoteHost.Proofs.RoundTripEffects

/-!
# Lists of handles

A list of handles is read twice: the session records every string in it, and whoever asked for the
list wants it to consist of strings. If it does, there is one object for each item, in the same
order; if not, the first item that is no string is reported and no object is given, but every string
was recorded all the same and can be released.
-/

namespace RemoteHost

variable {F β : Type} {s : Settings}

/-! ## Jobs that deliver lists -/

/-- What a job makes of the reply to its program: it wants a list of strings and presents one object
for each, in the order of the list; otherwise it fails, of a list with the first item that is no
string. In a session that grants what the job asks for, every string of a list is live afterwards
and none of them is remembered as released. -/
structure Job.DeliversList (job : Job F β) (present : List Proxy → β) : Prop where
  delivers : ∀ (talk : Talk F) result reply, job.run.Leads talk (.done result) →
    ⟨.collect, .ok reply⟩ ∈ talk → ∀ b, result = .ok b ↔ ∃ keys : List String,
      Spells reply (.primitive (.array (keys.map .string))) ∧ b = present (keys.map .resolved)
  refuses : ∀ (talk : Talk F) result reply, job.run.Leads talk (.done result) →
    ⟨.collect, .ok reply⟩ ∈ talk → ∀ (keys : List String) item rest, item.IsNoKey →
      Spells reply (.primitive (.array (keys.map .string ++ item :: rest))) →
        result = .error (.transport (.malformed (.listEntry item)))
  records : ∀ (talk : Talk F) result reply, job.run.Leads talk (.done result) →
    ⟨.collect, .ok reply⟩ ∈ talk → ∀ (p : Party) (st st' : Session F), st.GrantsAmid p talk st' →
      ∀ items key, Spells reply (.primitive (.array items)) → .string key ∈ items →
        st'.arena.contains key = true ∧ st'.arena.isReleased key = false
  needsReply : ∀ (talk : Talk F) b, job.run.Leads talk (.done (.ok b)) → talk.HasReply

variable {job : Job F β} {present : List Proxy → β} {read : Outcome → Except Fault β}
  {reply : Json} {items : List Json}

theorem comesTo_list (h : Spells reply (.primitive (.array items))) :
    ResultShape.handleList.comesTo (.ok reply) = .ok (.value (.array items)) := by
  have hspells : Spells reply (.ofOutcome (.value (.array items))) := h
  exact outcomeOfShape_of_spells hspells rfl

/-- What fits where a list is expected is a list. -/
theorem list_of_fits {outcome : Outcome} (h : ResultShape.handleList.fits outcome = true) :
    ∃ items, outcome = .value (.array items) := by
  cases outcome with
  | value v =>
    cases v with
    | array items => exact ⟨items, rfl⟩
    | _ => cases h
  | handle | absent => cases h

/-- Keys are read from values, and objects are presented for the keys. -/
def ReadsList (present : List Proxy → β) (read : Outcome → Except Fault β) : Prop :=
  ∀ v, read (.value v) = match handleKeys v with
    | .ok keys => .ok (present (keys.map .resolved))
    | .error fault => .error (.transport fault)

theorem ReadsList.eq_ok_iff (h : ReadsList present read) {v : Json} {b : β} :
    read (.value v) = .ok b ↔ ∃ keys : List String, v = .array (keys.map .string) ∧
      b = present (keys.map .resolved) := by
  rw [h]
  constructor
  · intro hok
    cases hkeys : handleKeys v with
    | ok keys =>
      rw [hkeys] at hok
      exact ⟨keys, handleKeys_eq_ok.mp hkeys, (Except.ok.inj hok).symm⟩
    | error fault =>
      rw [hkeys] at hok
      cases hok
  · rintro ⟨keys, hkeys, rfl⟩
    rw [handleKeys_eq_ok.mpr hkeys]

/-- Whoever asks for a list and reads it as keys delivers it. -/
theorem Job.EndsBy.deliversList (h : job.EndsBy s .handleList nothing read)
    (hread : ReadsList present read) : job.DeliversList present where
  delivers talk result reply hleads hreply b := by
    rw [h.eq_ok_iff hleads hreply]
    constructor
    · rintro ⟨outcome, hspells, hfits, hok⟩
      obtain ⟨items, rfl⟩ := list_of_fits hfits
      obtain ⟨keys, ⟨⟩, rfl⟩ := hread.eq_ok_iff.mp hok
      exact ⟨keys, hspells, rfl⟩
    · rintro ⟨keys, hspells, rfl⟩
      exact ⟨.value (.array (keys.map .string)), hspells, rfl, hread.eq_ok_iff.mpr ⟨keys, rfl, rfl⟩⟩
  refuses talk result reply hleads hreply keys item rest hitem hspells := by
    obtain ⟨_, _, _, -, -, rfl⟩ := (h _ _ hleads).of_answer hreply
    rw [comesTo_list hspells]
    apply (hread _).trans
    rw [handleKeys_listEntry hitem]
  records talk result reply hleads hreply p st st' hgrants items key hspells hkey := by
    obtain ⟨quiet, _, _, hquiet, rfl, -⟩ := (h _ _ hleads).of_answer hreply
    obtain ⟨asking, -, hanswered⟩ := hgrants.split
    obtain ⟨harena, -⟩ := hanswered.answered
    have hgiven : key ∈ ResultShape.handleList.keysOf (.ok reply) := by
      rw [ResultShape.keysOf_of_ok (comesTo_list hspells), ResultShape.mem_received]
      exact .listed hkey
    rw [harena]
    refine ⟨Arena.contains_restore.mpr (.inl hgiven), Bool.eq_false_iff.mpr fun hreleased => ?_⟩
    exact (Arena.isReleased_restore_iff.mp hreleased).1 hgiven
  needsReply talk b hleads := by
    rcases (h _ _ hleads).of_ok rfl with hnothing | ⟨reply, _, hmem, -⟩
    · exact hnothing.elim
    · exact ⟨reply, hmem⟩

/-! ## The operations -/

theorem endsBy_windows (s : Settings) (lineage : LineageId) :
    (windows s lineage : Job F (List Proxy)).EndsBy s .handleList nothing fun outcome =>
      (readAs .handleList (fun v => (handleKeys v).mapError .transport) outcome).map
        fun keys => keys.map .resolved := by
  apply (endsBy_evaluateAs s (s.hostModule ++ ".windows()") .handleList lineage
    fun v => (handleKeys v).mapError .transport).andThen
  · exact fun _ h => h.elim
  · intro outcome keys hkeys
    rw [hkeys]
    rfl
  · intro outcome fault hfault
    rw [hfault]
    rfl

theorem readsList_windows : ReadsList id fun outcome =>
    (readAs .handleList (fun v => (handleKeys v).mapError .transport) outcome).map
      fun keys => keys.map .resolved := by
  intro v
  dsimp only [readAs]
  cases handleKeys v <;> rfl

theorem windows_deliversList (s : Settings) (lineage : LineageId) :
    (windows s lineage : Job F (List Proxy)).DeliversList id :=
  (endsBy_windows s lineage).deliversList readsList_windows

theorem ask_deliversList (s : Settings) (receiver : Proxy) {q : Query} (step : Option LineageId)
    (hreading : q.reading = .objects) :
    (q.ask s receiver step : Job F Answer).DeliversList .objects := by
  have hends := endsBy_ask (F := F) s receiver q step
  rw [hreading] at hends
  have hlist : (q.ask s receiver step : Job F Answer).EndsBy s .handleList nothing
      Reading.objects.ofOutcome := by
    intro talk result hleads
    cases hends talk result hleads with
    | misused hquiet => exact .misused hquiet
    | spared hquiet h => exact absurd (hreading.symm.trans h.1) nofun
    | evaluated hquiet htalk => exact .evaluated hquiet htalk
  exact hlist.deliversList fun v => rfl

/-- The operations of a window that give a list of objects. -/
def WindowOperation.IsListing : WindowOperation → Prop
  | .views | .viewsInGroup _ | .sheets | .sheetsInGroup _ => True
  | _ => False

theorem WindowOperation.reading_of_isListing {op : WindowOperation} (h : op.IsListing)
    (s : Settings) : (op.query s).reading = .objects := by
  cases op with
  | views | viewsInGroup | sheets | sheetsInGroup => rfl
  | _ => exact h.elim

theorem exists_leads_windows (s : Settings) (lineage : LineageId)
    (answer : Except TransportFault Json) : ∃ (talk : Talk F) (result : Except Fault (List Proxy)),
      (windows s lineage).run.Leads talk (.done result) ∧ ⟨.collect, answer⟩ ∈ talk := by
  let answered : Talk F :=
    Talk.answered s (s.hostModule ++ ".windows()") .handleList lineage answer
  have hevaluated : (evaluate s (s.hostModule ++ ".windows()") .handleList lineage :
      Job F Outcome).run.Leads answered _ := leads_evaluate.mpr (.answered answer)
  have hread : (evaluateAs s (s.hostModule ++ ".windows()") .handleList lineage fun v =>
      (handleKeys v).mapError .transport : Job F (List String)).run.Leads answered (.done
        ((ResultShape.handleList.comesTo answer).bind
          (readAs .handleList fun v => (handleKeys v).mapError .transport))) := by
    apply Job.leads_andThen_done hevaluated
    intro outcome _
    cases outcome <;> rfl
  exact ⟨_, _, Job.leads_andThen_done hread fun _ _ => rfl, Talk.collect_mem_answered.mpr rfl⟩

theorem exists_leads_ask {receiver : Proxy} {q : Query} {step : Option LineageId}
    (hreading : q.reading ≠ .object) (h : q.operation.IsSent s receiver step)
    (answer : Except TransportFault Json) : ∃ (talk : Talk F) (result : Except Fault Answer),
      (q.ask s receiver step).run.Leads talk (.done result) ∧ ⟨.collect, answer⟩ ∈ talk := by
  obtain ⟨quiet, expression, lineage, -, hsettled⟩ := exists_leads_settle (F := F) h answer
  rw [Query.ask, if_neg hreading]
  exact ⟨_, _, Job.leads_andThen_done hsettled fun _ _ => rfl,
    List.mem_append_right _ (Talk.collect_mem_answered.mpr rfl)⟩

/-- Asking for all windows, or for the views or sheets of a window or of one of its groups, delivers
the list of the reply: one object for each item if all of them are strings, and no object but the
first other item if not, while every string of the list is live. Every reply can come, to a window
operation whenever it is sent. -/
theorem handle_lists_delivered_whole (s : Settings) :
    (∀ lineage, (windows s lineage : Job F (List Proxy)).DeliversList id ∧
      ∀ answer, ∃ (talk : Talk F) (result : Except Fault (List Proxy)),
        (windows s lineage).run.Leads talk (.done result) ∧ ⟨.collect, answer⟩ ∈ talk) ∧
    ∀ (op : WindowOperation) (window : Proxy) (step : Option LineageId), op.IsListing →
      ((op.query s).ask s window step : Job F Answer).DeliversList .objects ∧
      ((op.query s).operation.IsSent s window step →
        ∀ answer, ∃ (talk : Talk F) (result : Except Fault Answer),
          ((op.query s).ask s window step).run.Leads talk (.done result) ∧
            ⟨.collect, answer⟩ ∈ talk) := by
  constructor
  · exact fun lineage => ⟨windows_deliversList s lineage, exists_leads_windows s lineage⟩
  · intro op window step hlisting
    have hreading := op.reading_of_isListing hlisting s
    refine ⟨ask_deliversList s window step hreading, fun hsent answer => ?_⟩
    exact exists_leads_ask (by rw [hreading]; exact nofun) hsent answer

/-- A session with a released key, and a host that is about to give a list of views. -/
def viewing (items : List Json) : Session Unit where
  settings := {}
  host := .replaying { replies := [.json (Envelope.primitive (.array items)).toJson] }
  arena := ((Arena.empty 8).record "v1").drain.2
  lineages := [{ label := "step" }]

/-- Asking a stored window for its views. -/
def askViews : Job Unit Answer := (WindowOperation.views.query {}).ask {} (.resolved "w") (some 0)

/-- What is asked for when the host replies with a list. -/
def viewsTalk (items : List Json) : Talk Unit :=
  ⟨.isReleased "w", false⟩ :: Talk.answered {}
    (Program.handleRef {} "w" ++ (WindowOperation.views.query {}).suffix) .handleList 0
    (.ok (Envelope.primitive (.array items)).toJson)

/-- A view that is listed twice is given twice, although its key was released before. Where an item
is no string, it is reported, and the keys before and after it are live. -/
theorem listed_twice_and_mixed :
    let twice : List Json := [.string "v1", .string "v1"]
    let mixed : List Json := [.string "v1", .null, .string "v2"]
    (viewing []).arena.isReleased "v1" = true ∧
    (∃ st', askViews.run.Leads (viewsTalk twice)
        (.done (.ok (.objects [.resolved "v1", .resolved "v1"]))) ∧
      (viewing twice).GrantsAmid .foreground (viewsTalk twice) st' ∧
      st'.arena.contains "v1" = true ∧ st'.arena.isReleased "v1" = false) ∧
    ∃ st', askViews.run.Leads (viewsTalk mixed)
        (.done (.error (.transport (.malformed (.listEntry .null))))) ∧
      (viewing mixed).GrantsAmid .foreground (viewsTalk mixed) st' ∧
      ∀ key ∈ ["v1", "v2"],
        st'.arena.contains key = true ∧ st'.arena.isReleased key = false := by
  intro twice mixed
  obtain ⟨hlist, -⟩ := (handle_lists_delivered_whole (F := Unit) {}).2 .views (.resolved "w")
    (some 0) trivial
  have hspells (items : List Json) : Spells (Envelope.primitive (.array items)).toJson
      (.primitive (.array items)) := Envelope.spells_toJson _
  have hanswer (items : List Json) : ⟨.collect, .ok (Envelope.primitive (.array items)).toJson⟩ ∈
      viewsTalk items := List.mem_cons_of_mem _ (Talk.collect_mem_answered.mpr rfl)
  refine ⟨by decide +kernel, ?twice, ?mixed⟩
  case twice =>
    have hleads : askViews.run.Leads (viewsTalk twice)
        (.done (.ok (.objects [.resolved "v1", .resolved "v1"]))) :=
      .ask _ (.ask _ (.ask _ (.ask _ (.ask _ (.ask _ (.ask _ (.here _)))))))
    have hgrants : (viewing twice).GrantsAmid .foreground (viewsTalk twice) _ := .more rfl
      (.more rfl (.more rfl (.more rfl (.more rfl (.more rfl (.more rfl (.nothing _)))))))
    exact ⟨_, hleads, hgrants, hlist.records _ _ _ hleads (hanswer twice) _ _ _ hgrants _ _
      (hspells twice) (by simp [twice])⟩
  case mixed =>
    have hleads : askViews.run.Leads (viewsTalk mixed)
        (.done (.error (.transport (.malformed (.listEntry .null))))) :=
      .ask _ (.ask _ (.ask _ (.ask _ (.ask _ (.ask _ (.ask _ (.here _)))))))
    have hgrants : (viewing mixed).GrantsAmid .foreground (viewsTalk mixed) _ := .more rfl
      (.more rfl (.more rfl (.more rfl (.more rfl (.more rfl (.more rfl (.nothing _)))))))
    refine ⟨_, hleads, hgrants, fun key hkey => ?_⟩
    have hlisted : key = "v1" ∨ key = "v2" := by simpa using hkey
    apply hlist.records _ _ _ hleads (hanswer mixed) _ _ _ hgrants _ _ (hspells mixed)
    rcases hlisted with rfl | rfl <;> simp [mixed]

end RemoteHost
