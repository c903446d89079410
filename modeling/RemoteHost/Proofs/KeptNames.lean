import RemoteHost.Proofs.ModulePaths
import RemoteHost.Proofs.PreludeNames

/-!
# Names that are kept apart

A session works with the handle table and the helpers that the prelude has bound, while each of its
programs assigns the result slot. They last exactly if the settings keep the names apart that they
put into programs. To check settings is not enough: each name is looked at alone, and a word that is
no name in the host language passes.
-/

namespace RemoteHost

open Program (announce prelude provideTable setup)

variable {s : Settings} {bindings : Bindings}

/-! ## Settings -/

/-- The names that the prelude binds whatever the settings are. -/
def preludeNames : List String :=
  ["json", "socket", "threading", "uuid", "__hostlink_store", "__hostlink_is_primitive",
    "__hostlink_wrap"]

namespace Settings

def globalNames (s : Settings) : List String := s.globals.map (·.2)

/-- Everything that is put into programs as a name. -/
def spliced (s : Settings) : List String := s.globalNames ++ s.moduleParts

structure KeepsApart (s : Settings) : Prop where
  unreserved : ∀ name ∈ s.spliced, name ∉ keywords
  distinct : s.globalNames.Nodup
  foreign : ∀ name ∈ s.globalNames, name ∉ preludeNames

/-- The names that the prelude binds before the result slot. -/
def setupNames (s : Settings) : List String :=
  ["json", "socket", "threading", "uuid", s.handleTable, "__hostlink_store",
    "__hostlink_is_primitive", "__hostlink_wrap", s.envelopeHelper, s.callbackHelper]

theorem isName_iff {name : String} (h : isIdentifier name.toList = true) :
    isName name = true ↔ name ∉ keywords := by
  simp [isName, h]

theorem isName_globalNames (h : s.check = .ok ()) :
    (∀ name ∈ s.globalNames, isName name = true) ↔ ∀ name ∈ s.globalNames, name ∉ keywords := by
  refine forall₂_congr fun name hname => isName_iff ?_
  obtain ⟨g, hg, rfl⟩ := List.mem_map.mp hname
  exact (names_of_check h).1 g hg

theorem isName_moduleParts (h : s.check = .ok ()) :
    s.moduleParts.all isName = true ↔ ∀ name ∈ s.moduleParts, name ∉ keywords := by
  rw [List.all_eq_true]
  refine forall₂_congr fun name hname => isName_iff ?_
  obtain ⟨part, hpart, rfl⟩ := List.mem_map.mp hname
  rw [String.toList_ofList]
  exact List.all_eq_true.mp (names_of_check h).2 part hpart

theorem perm_setupNames (s : Settings) :
    (s.setupNames ++ [s.resultSlot]).Perm (preludeNames ++ s.globalNames) := by
  refine List.Perm.append_left ["json", "socket", "threading", "uuid"] ?_
  have htable : (s.handleTable :: (["__hostlink_store", "__hostlink_is_primitive",
        "__hostlink_wrap"] ++ [s.envelopeHelper, s.callbackHelper, s.resultSlot])).Perm
      (["__hostlink_store", "__hostlink_is_primitive", "__hostlink_wrap"] ++
        s.handleTable :: [s.envelopeHelper, s.callbackHelper, s.resultSlot]) :=
    List.perm_middle.symm
  have hslot : ([s.envelopeHelper, s.callbackHelper] ++ [s.resultSlot]).Perm
      ([s.resultSlot] ++ [s.envelopeHelper, s.callbackHelper]) := List.perm_append_comm
  exact htable.trans (List.Perm.append_left _ (hslot.cons _))

theorem nodup_setupNames_iff : (s.setupNames ++ [s.resultSlot]).Nodup ↔
    s.globalNames.Nodup ∧ ∀ name ∈ s.globalNames, name ∉ preludeNames := by
  have hown : preludeNames.Nodup := by decide
  rw [s.perm_setupNames.nodup_iff, List.nodup_append]
  constructor
  · rintro ⟨-, hglobals, happart⟩
    exact ⟨hglobals, fun name hname hin => happart name hin name hname rfl⟩
  · rintro ⟨hglobals, hforeign⟩
    refine ⟨hown, hglobals, fun a ha b hb hab => hforeign b hb (hab ▸ ha)⟩

end Settings

/-! ## Programs of a session -/

/-- A program for the envelope of an expression, and whether the host gets to assign it. -/
structure Attempt where
  expression : String
  shape : ResultShape
  returns : Bool

def Attempt.run (s : Settings) (bindings : Bindings) (a : Attempt) : Option Bindings :=
  (readAssignment (Program.enveloped s a.expression a.shape).toList).map fun (name, value) =>
    if a.returns then (HostStatement.assign name value).run bindings else bindings

/-- The program of an expression whose brackets are closed assigns the result slot. -/
theorem readAssignment_enveloped (hslot : isName s.resultSlot = true)
    (hhelper : isIdentifier s.envelopeHelper.toList = true) {expression : String}
    (hexpression : isEnclosable expression.toList = true) (shape : ResultShape) :
    ∃ value, readAssignment (Program.enveloped s expression shape).toList =
      some (s.resultSlot, value) := by
  have hclosing : ∀ mode, (Scan.mk mode 0).isDone = true →
      (("), ".toList ++ (Literal.quoted shape.name).toList ++ ")".toList).foldlM Scan.stepOutside
        (⟨mode, 2⟩ : Scan)) = some ⟨.code, 0⟩ := by
    intro mode hdone
    cases mode with
    | code => cases shape <;> decide
    | doubled quote => cases shape <;> cases quote <;> decide
    | _ => cases hdone
  have hopening : "(lambda: (".toList.foldlM Scan.stepOutside (⟨.code, 0⟩ : Scan) =
      some ⟨.code, 2⟩ := by decide
  obtain ⟨mode, hdone, hrun⟩ := run_enclosed hexpression 1
  have hvalue : isValue (s.envelopeHelper.toList ++ ("(lambda: (".toList ++ (expression.toList ++
      ("), ".toList ++ (Literal.quoted shape.name).toList ++ ")".toList)))) = true := by
    rw [isValue, Scan.run_append (Scan.run_nameChars (isNameChar_of_isIdentifier hhelper) 0),
      Scan.run_append hopening, Scan.run_append hrun, hclosing mode hdone]
    rfl
  have hprogram : (Program.enveloped s expression shape).toList = s.resultSlot.toList ++
      ' ' :: '=' :: ' ' :: (s.envelopeHelper.toList ++ ("(lambda: (".toList ++
        (expression.toList ++ ("), ".toList ++ (Literal.quoted shape.name).toList ++
          ")".toList)))) := by
    simp [Program.enveloped, String.toList_append]
  have hidentifier : isIdentifier s.resultSlot.toList = true := (Bool.and_eq_true_iff.mp hslot).1
  rw [hprogram, readAssignment_append hidentifier hvalue, if_pos hslot]
  exact ⟨_, rfl⟩

theorem run_attempts (hslot : isName s.resultSlot = true)
    (hhelper : isIdentifier s.envelopeHelper.toList = true) {attempts : List Attempt}
    (hattempts : ∀ a ∈ attempts, isEnclosable a.expression.toList = true) (bindings : Bindings) :
    ∃ after, attempts.foldlM (Attempt.run s) bindings = some after ∧
      ∀ name, name ≠ s.resultSlot → after name = bindings name := by
  induction attempts generalizing bindings with
  | nil => exact ⟨bindings, rfl, fun _ _ => rfl⟩
  | cons a attempts ih =>
    obtain ⟨ha, hattempts⟩ := List.forall_mem_cons.mp hattempts
    obtain ⟨value, hread⟩ := readAssignment_enveloped hslot hhelper ha a.shape
    obtain ⟨next, hstep, hsame⟩ : ∃ next, a.run s bindings = some next ∧
        ∀ name, name ≠ s.resultSlot → next name = bindings name := by
      refine ⟨_, congrArg (Option.map _) hread, fun name hname => ?_⟩
      dsimp only
      split
      · exact HostStatement.run_other hname
      · rfl
    obtain ⟨after, hrun, hkept⟩ := ih hattempts next
    refine ⟨after, ?_, fun name hname => (hkept name hname).trans (hsame name hname)⟩
    rw [List.foldlM_cons, hstep]
    exact hrun

/-! ## What is set up -/

/-- The host reads what the settings name, and what the prelude sets up outlasts every program. -/
structure Settings.SetsUp (s : Settings) (bindings : Bindings) : Prop where
  window : (Token.read (activeWindowSource s)).bind readExpression = some (.activeWindow s)
  lasts : ∃ (statements : List HostStatement) (value : List Char),
    readModule (prelude s).toList = some (statements ++ [.assign s.resultSlot value]) ∧
    statements.map (·.name) = s.setupNames ∧
    ∀ attempts : List Attempt, (∀ a ∈ attempts, isEnclosable a.expression.toList = true) →
      ∃ after, attempts.foldlM (Attempt.run s) ((statements ++
          [HostStatement.assign s.resultSlot value]).foldl HostStatement.run bindings) =
            some after ∧
        ∀ statement ∈ statements, after statement.name = some statement

/-- No two statements are the same, whatever the names in the settings are. -/
theorem nodup_setup (s : Settings) : (setup s).Nodup := by
  simp [setup, provideTable]

theorem names_setup (s : Settings) :
    (setup s ++ [announce s]).map HostStatement.name = s.setupNames ++ [s.resultSlot] := rfl

theorem all_isName_iff (h : s.check = .ok ()) :
    (setup s ++ [announce s]).all (isName ·.name) = true ↔
      ∀ name ∈ s.globalNames, name ∉ keywords := by
  have hown : ∀ name ∈ preludeNames, isName name = true := by decide
  have hall : (setup s ++ [announce s]).all (isName ·.name) =
      (s.setupNames ++ [s.resultSlot]).all isName := rfl
  rw [← Settings.isName_globalNames h, hall, List.all_eq_true]
  constructor
  · intro hnames name hname
    exact hnames name (s.perm_setupNames.mem_iff.mpr (List.mem_append_right _ hname))
  · intro hglobals name hname
    rcases List.mem_append.mp (s.perm_setupNames.mem_iff.mp hname) with hname | hname
    · exact hown name hname
    · exact hglobals name hname

/-- The prelude finds its table, or no table, where it provides one. -/
theorem takesHold_setup (htable : (provideTable s).TakesHold bindings) :
    ∀ statement ∈ setup s ++ [announce s], statement.TakesHold bindings := by
  intro statement hin
  cases statement with
  | provide name value =>
    obtain ⟨rfl, rfl⟩ : name = s.handleTable ∧ value = "\x7b\x7d".toList := by
      simpa [setup, announce, provideTable] using hin
    exact htable
  | _ => trivial

theorem assign_notMem_setup {value : List Char} (name : String) :
    .assign name value ∉ setup s := by
  simp [setup, provideTable]

theorem Settings.KeepsApart.setsUp (hapart : s.KeepsApart) (h : s.check = .ok ())
    (hhost : Text.occurs "@VERSION@".toList s.callbackHost.toList = false)
    (htable : (provideTable s).TakesHold bindings) : s.SetsUp bindings := by
  have hglobals : ∀ name ∈ s.globalNames, name ∉ keywords := fun name hname =>
    hapart.unreserved name (List.mem_append_left _ hname)
  have hparts : ∀ name ∈ s.moduleParts, name ∉ keywords := fun name hname =>
    hapart.unreserved name (List.mem_append_right _ hname)
  have hnodup : ((setup s ++ [announce s]).map HostStatement.name).Nodup :=
    nodup_setupNames_iff.mpr ⟨hapart.distinct, hapart.foreign⟩
  have hlast := HostStatement.runAll_of_nodup hnodup (takesHold_setup htable)
  have hin : s.resultSlot ∈ s.globalNames := by simp [globalNames, globals]
  have hslot : isName s.resultSlot = true := (isName_globalNames h).mpr hglobals _ hin
  have hhelper := (Program.identifiers_of_check h).2.2.1
  have hread := Program.readModule_prelude h hhost
  rw [if_pos ((all_isName_iff h).mpr hglobals)] at hread
  have hwindow := (readExpression_activeWindow (names_of_check h).2).mpr
    ((isName_moduleParts h).mpr hparts)
  refine ⟨hwindow, setup s, _, hread, rfl, fun attempts hattempts => ?_⟩
  obtain ⟨after, hrun, hkept⟩ := run_attempts hslot hhelper hattempts
    ((setup s ++ [announce s]).foldl HostStatement.run bindings)
  refine ⟨after, hrun, fun statement hin => ?_⟩
  -- The programs bind the result slot alone, and no statement of the prelude binds it before.
  have hother : statement.name ≠ s.resultSlot := by
    rw [names_setup, List.nodup_append] at hnodup
    exact hnodup.2.2 _ (List.mem_map_of_mem (f := HostStatement.name) hin) _ List.mem_cons_self
  rw [hkept _ hother]
  exact hlast statement (List.mem_append_left _ hin)

/-- Right after the prelude it shows whether two of its statements bind the same name. -/
theorem Settings.SetsUp.keepsApart (hsets : s.SetsUp bindings) (h : s.check = .ok ())
    (hhost : Text.occurs "@VERSION@".toList s.callbackHost.toList = false) : s.KeepsApart := by
  obtain ⟨hwindow, statements, value, hstatements, -, hlasts⟩ := hsets
  have hread := Program.readModule_prelude h hhost
  have hglobals : ∀ name ∈ s.globalNames, name ∉ keywords := by
    rw [← all_isName_iff h]
    by_contra hreserved
    rw [if_neg hreserved, hstatements] at hread
    cases hread
  have hparts : ∀ name ∈ s.moduleParts, name ∉ keywords :=
    (isName_moduleParts h).mp ((readExpression_activeWindow (names_of_check h).2).mp hwindow)
  rw [if_pos ((all_isName_iff h).mpr hglobals), hstatements] at hread
  obtain ⟨rfl, -⟩ := List.append_inj' (Option.some.inj hread) rfl
  obtain ⟨after, hrun, hlast⟩ := hlasts [] (List.forall_mem_nil _)
  obtain rfl := Option.some.inj hrun
  have hnodup : ((setup s).map HostStatement.name).Nodup :=
    HostStatement.nodup_of_runAll (nodup_setup s) hlast
  have hslot : s.resultSlot ∉ (setup s).map HostStatement.name := by
    intro hin
    obtain ⟨statement, hin, hname⟩ := List.mem_map.mp hin
    have hbound := hlast statement hin
    rw [hname, List.foldl_append] at hbound
    have hself : HostStatement.run ((setup s).foldl HostStatement.run bindings)
        (.assign s.resultSlot value) s.resultSlot = some (.assign s.resultSlot value) :=
      HostStatement.run_self trivial
    rw [Option.some.inj (hbound.symm.trans hself)] at hin
    exact assign_notMem_setup _ hin
  have hall : (s.setupNames ++ [s.resultSlot]).Nodup :=
    List.nodup_append.mpr ⟨hnodup, List.nodup_singleton _, fun a ha b hb hab =>
      hslot (List.mem_singleton.mp hb ▸ hab ▸ ha)⟩
  obtain ⟨hdistinct, hforeign⟩ := nodup_setupNames_iff.mp hall
  exact ⟨List.forall_mem_append.mpr ⟨hglobals, hparts⟩, hdistinct, hforeign⟩

/-- Settings that may be loaded keep their names apart exactly if the host can be set up by the
prelude, from a host that has its table or none, and stays so whatever programs come after it. -/
theorem keepsApart_iff_setsUp (h : s.check = .ok ())
    (hhost : Text.occurs "@VERSION@".toList s.callbackHost.toList = false)
    (htable : (provideTable s).TakesHold bindings) : s.KeepsApart ↔ s.SetsUp bindings :=
  ⟨fun hapart => hapart.setsUp h hhost htable, fun hsets => hsets.keepsApart h hhost⟩

/-- The settings that are used where nothing is set keep their names apart. -/
theorem default_names_last : Settings.KeepsApart {} ∧ Settings.SetsUp {} fun _ => none := by
  have hapart : Settings.KeepsApart {} := ⟨by decide, by decide, by decide⟩
  have hloads : Settings.check {} = .ok () := by decide
  have habsent : Text.occurs "@VERSION@".toList "127.0.0.1".toList = false := by decide
  exact ⟨hapart, (keepsApart_iff_setsUp hloads habsent (.inl rfl)).mp hapart⟩

/-- Settings in which a word that is no name stands for the handle table. -/
def reservedTable : Settings := { handleTable := "class" }

/-- Settings in which results go where the handle table is. -/
def sharedSlot : Settings := { resultSlot := "__hostlink_handles" }

/-- Settings in which a helper has the name of another one. -/
def takenHelper : Settings := { envelopeHelper := "__hostlink_wrap" }

/-- Settings pass the check whose prelude is no module, whose prelude overwrites the handle table,
or whose prelude loses a helper. -/
theorem checked_names_collide :
    (reservedTable.check = .ok () ∧ ¬reservedTable.KeepsApart ∧
      readModule (prelude reservedTable).toList = none) ∧
    (sharedSlot.check = .ok () ∧ ¬sharedSlot.KeepsApart ∧
      ∃ statements, readModule (prelude sharedSlot).toList = some statements ∧
        statements.foldl HostStatement.run (fun _ => none) sharedSlot.handleTable =
          some (announce sharedSlot)) ∧
    takenHelper.check = .ok () ∧ ¬takenHelper.KeepsApart := by
  have habsent : Text.occurs "@VERSION@".toList "127.0.0.1".toList = false := by decide
  have hreserved : reservedTable.check = .ok () := by decide
  have hshared : sharedSlot.check = .ok () := by decide
  refine ⟨⟨hreserved, fun h => ?_, ?_⟩, ⟨hshared, fun h => ?_, ?_⟩, by decide, fun h => ?_⟩
  · exact h.unreserved "class" (by decide) (by decide)
  · rw [Program.readModule_prelude hreserved habsent, if_neg (by decide)]
  · exact absurd h.distinct (by decide)
  · refine ⟨_, (Program.readModule_prelude hshared habsent).trans (if_pos (by decide)), ?_⟩
    rw [List.foldl_append]
    have hold : (announce sharedSlot).TakesHold
        ((setup sharedSlot).foldl HostStatement.run fun _ => none) := trivial
    exact HostStatement.run_self hold
  · exact h.foreign "__hostlink_wrap" (by decide) (by decide)

end RemoteHost
