import RemoteHost.Catalogue.Query

/-!
# Windows, views and sheets

The operations of the editor's objects, each with the query that performs it.
-/

namespace RemoteHost

inductive WindowOperation where
  | id
  | newFile
  | openFile (path : String) (flags : Int)
  | findOpenFile (path : String)
  | activeSheet
  | activeSheetInGroup (group : Int)
  | activeView
  | activeViewInGroup (group : Int)
  | views
  | viewsInGroup (group : Int)
  | sheets
  | sheetsInGroup (group : Int)
  | numGroups
  | activeGroup
  | focusGroup (group : Int)
  | focusSheet (target : Proxy)
  | focusView (target : Proxy)
  | statusMessage (message : String)
  | runCommand (command : String) (arguments : Option (List (String × Json)))
  | projectData
  | setProjectData (data : Json)
  | folders
  | extractVariables
  | createOutputPanel (name : String) (unlisted : Bool)
  | findOutputPanel (name : String)
  | destroyOutputPanel (name : String)
  | activePanel
  | panels

/-- The query of an operation. A pending target is produced inside the same program. -/
def WindowOperation.query (s : Settings) : WindowOperation → Query
  | .id => .method "id" [] .integer
  | .newFile => .method "new_file" [] .object
  | .openFile path flags =>
    .method "open_file" [Literal.quoted path, Literal.ofInt flags] .object
  | .findOpenFile path => .method "find_open_file" [Literal.quoted path] .optionalObject
  | .activeSheet => .method "active_sheet" [] .object
  | .activeSheetInGroup group => .method "active_sheet_in_group" [Literal.ofInt group] .object
  | .activeView => .method "active_view" [] .object
  | .activeViewInGroup group => .method "active_view_in_group" [Literal.ofInt group] .object
  | .views => .method "views" [] .objects
  | .viewsInGroup group => .method "views_in_group" [Literal.ofInt group] .objects
  | .sheets => .method "sheets" [] .objects
  | .sheetsInGroup group => .method "sheets_in_group" [Literal.ofInt group] .objects
  | .numGroups => .method "num_groups" [] .integer
  | .activeGroup => .method "active_group" [] .integer
  | .focusGroup group => .method "focus_group" [Literal.ofInt group] .unit
  | .focusSheet target => .method "focus_sheet" [target.source s] .unit
  | .focusView target => .method "focus_view" [target.source s] .unit
  | .statusMessage message => .method "status_message" [Literal.quoted message] .unit
  | .runCommand command none => .method "run_command" [Literal.quoted command] .unit
  | .runCommand command (some arguments) =>
    .method "run_command" [Literal.quoted command, Literal.ofFields arguments] .unit
  | .projectData => .method "project_data" [] .value
  | .setProjectData data => .method "set_project_data" [Literal.ofJson data] .unit
  | .folders => .method "folders" [] .texts
  | .extractVariables => .method "extract_variables" [] .mapping
  | .createOutputPanel name unlisted =>
    .method "create_output_panel" [Literal.quoted name, Literal.ofBool unlisted] .object
  | .findOutputPanel name => .method "find_output_panel" [Literal.quoted name] .optionalObject
  | .destroyOutputPanel name => .method "destroy_output_panel" [Literal.quoted name] .unit
  | .activePanel => .method "active_panel" [] .optionalText
  | .panels => .method "panels" [] .texts

inductive ViewOperation where
  | id
  | fileName
  | size
  | isLoading
  | window

def ViewOperation.query : ViewOperation → Query
  | .id => .method "id" [] .integer
  | .fileName => .method "file_name" [] .optionalText
  | .size => .method "size" [] .integer
  | .isLoading => .method "is_loading" [] .boolean
  | .window => .method "window" [] .object

inductive SheetOperation where
  | id
  | view

def SheetOperation.query : SheetOperation → Query
  | .id => .method "id" [] .integer
  | .view => .method "view" [] .optionalObject

def activeWindowSource (s : Settings) : String := s.hostModule ++ ".active_window()"

/-- The window in front, as a proxy that has not been produced yet. -/
def activeWindow (s : Settings) : Proxy := .root (activeWindowSource s)

/-- All open windows, in the host's order. -/
def windows {F : Type} (s : Settings) (lineage : LineageId) : Job F (List Proxy) := do
  let keys ← evaluateAs s (s.hostModule ++ ".windows()") .handleList lineage fun value =>
    (handleKeys value).mapError .transport
  pure (keys.map .resolved)

end RemoteHost
