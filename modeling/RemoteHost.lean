import RemoteHost.Arena
import RemoteHost.Callback
import RemoteHost.Catalogue.Command
import RemoteHost.Catalogue.Objects
import RemoteHost.Catalogue.Panel
import RemoteHost.Catalogue.Query
import RemoteHost.CommandLine.Arguments
import RemoteHost.CommandLine.FileTree
import RemoteHost.CommandLine.Help
import RemoteHost.CommandLine.Run
import RemoteHost.Decimal.Binary64
import RemoteHost.Decimal.Layout
import RemoteHost.Decimal.Shortest
import RemoteHost.Decimal.Whole
import RemoteHost.Envelope
import RemoteHost.Evaluation
import RemoteHost.Fault
import RemoteHost.Host
import RemoteHost.Host.Board
import RemoteHost.Host.Replay
import RemoteHost.Host.Scripted
import RemoteHost.Invocation
import RemoteHost.Json.Fault
import RemoteHost.Json.Form
import RemoteHost.Json.Mismatch
import RemoteHost.Json.Printer
import RemoteHost.Json.Reader
import RemoteHost.Json.Scanner
import RemoteHost.Json.Value
import RemoteHost.Lineage
import RemoteHost.Literal.Quoted
import RemoteHost.Literal.Reader
import RemoteHost.Literal.Value
import RemoteHost.Network.Address
import RemoteHost.Network.Reach
import RemoteHost.Program.Prelude
import RemoteHost.Program.Source
import RemoteHost.Proofs.ArrivalLines
import RemoteHost.Proofs.ArrivalOrder
import RemoteHost.Proofs.BoardChanges
import RemoteHost.Proofs.CallbackFrames
import RemoteHost.Proofs.CallbackLifeCycle
import RemoteHost.Proofs.EndpointOwnership
import RemoteHost.Proofs.OperationCourses
import RemoteHost.Proofs.OperationStories
import RemoteHost.Proofs.Quoting
import RemoteHost.Proofs.RoutineDiscipline
import RemoteHost.Proofs.SessionInterleaving
import RemoteHost.Proxy
import RemoteHost.Resolution
import RemoteHost.Routine
import RemoteHost.Script.Action
import RemoteHost.Script.BuiltIn
import RemoteHost.Script.Instruction
import RemoteHost.Script.Perform
import RemoteHost.Script.Workspace
import RemoteHost.Session.Answer
import RemoteHost.Session.Dispatch
import RemoteHost.Session.Pace
import RemoteHost.Session.Schedule
import RemoteHost.Session.State
import RemoteHost.Session.Supervision
import RemoteHost.Settings
import RemoteHost.Settings.File
import RemoteHost.Shape
import RemoteHost.Text.Blank
import RemoteHost.Text.Glyph
import RemoteHost.Text.Hex
import RemoteHost.Text.Pieces
import RemoteHost.Text.Printable
import RemoteHost.Text.Shown
import RemoteHost.Text.Uuid
import RemoteHost.Wire.Connection
import RemoteHost.Wire.Lines
import RemoteHost.Main
import RemoteHost.Proofs.ArenaChanges
import RemoteHost.Proofs.KeyFrames
import RemoteHost.Proofs.ReleaseDiscipline
import RemoteHost.Proofs.HandleCustody
import RemoteHost.Proofs.ReplyLines
import RemoteHost.Proofs.TurnLines
import RemoteHost.Proofs.Exchange
import RemoteHost.Proofs.ReplyMatching
import RemoteHost.Proofs.StaleReplies
import RemoteHost.Proofs.OwnReplies
import RemoteHost.Proofs.Rota
import RemoteHost.Proofs.TurnLog
import RemoteHost.Proofs.TurnOrder
import RemoteHost.Proofs.Editor
import RemoteHost.Proofs.ChainAgreement
import RemoteHost.Proofs.SourceSymbols
import RemoteHost.Proofs.CallSources
import RemoteHost.Proofs.CataloguePrograms
import RemoteHost.Proofs.CatalogueCalls
import RemoteHost.Proofs.ProgramSkeletons
import RemoteHost.Proofs.NearestFloats
import RemoteHost.Proofs.ShortestDigits
import RemoteHost.Proofs.NumberTexts
import RemoteHost.Proofs.ValueLiterals
import RemoteHost.Proofs.ObjectCalls
import RemoteHost.Proofs.ReleasedReceivers
import RemoteHost.Proofs.ChainLimit
import RemoteHost.Proofs.PartyMoves
import RemoteHost.Proofs.StartingOperations
import RemoteHost.Proofs.EndpointFates
import RemoteHost.Proofs.LaunchedOperations
import RemoteHost.Proofs.AllOrNothing
import RemoteHost.Proofs.EnvelopeFormat
import RemoteHost.Proofs.ArenaRefinement
import RemoteHost.Proofs.KeyLifetimes
import RemoteHost.Proofs.MisusedOperations
import RemoteHost.Proofs.StepConflicts
import RemoteHost.Proofs.LeakReports
import RemoteHost.Proofs.SettingsFiles
import RemoteHost.Proofs.RequestFraming
import RemoteHost.Proofs.AbandonedReleases
import RemoteHost.Proofs.ReleasePrograms
import RemoteHost.Proofs.PreludeMarkers
import RemoteHost.Proofs.DeferredChains
import RemoteHost.Proofs.TokenSubstitution
import RemoteHost.Proofs.DeadFunctions
import RemoteHost.Proofs.PanelPrograms
import RemoteHost.Proofs.PanelWiring
import RemoteHost.Proofs.EvaluationTalks
import RemoteHost.Proofs.RoundTripEffects
import RemoteHost.Proofs.QueryTalks
import RemoteHost.Proofs.HandleLists
import RemoteHost.Proofs.DeclaredShapes
import RemoteHost.Proofs.Bursts
import RemoteHost.Proofs.OtherMoves
import RemoteHost.Proofs.HostLinks
import RemoteHost.Proofs.BurstRuns
import RemoteHost.Proofs.RefusedPayloads
import RemoteHost.Proofs.HostFrames
import RemoteHost.Proofs.NumberedEndpoints
import RemoteHost.Proofs.ScriptedLog
import RemoteHost.Proofs.TextValidity
import RemoteHost.Proofs.LineStreams
import RemoteHost.Proofs.ClosedEndpoints
import RemoteHost.Proofs.CountedScenes
import RemoteHost.Proofs.CallbackConnections
import RemoteHost.Proofs.HostModules
import RemoteHost.Proofs.PreludeNames
import RemoteHost.Proofs.ModulePaths
import RemoteHost.Proofs.KeptNames
