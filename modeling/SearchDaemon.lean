import SearchDaemon.Bytes
import SearchDaemon.Channel
import SearchDaemon.Channel.Exchange
import SearchDaemon.Client
import SearchDaemon.CommandLine
import SearchDaemon.Connection
import SearchDaemon.Console
import SearchDaemon.Control
import SearchDaemon.Control.Stopping
import SearchDaemon.Daemon
import SearchDaemon.Daemon.Serving
import SearchDaemon.Daemon.Session
import SearchDaemon.Daemon.Starting
import SearchDaemon.Daemon.Stopping
import SearchDaemon.FileTree
import SearchDaemon.FileTree.Edit
import SearchDaemon.FileTree.Ensuring
import SearchDaemon.FileTree.Listing
import SearchDaemon.FileTree.Planting
import SearchDaemon.FileTree.Resolve
import SearchDaemon.Finder
import SearchDaemon.Frame
import SearchDaemon.Frame.Receiving
import SearchDaemon.Home
import SearchDaemon.Host
import SearchDaemon.Listener
import SearchDaemon.Log
import SearchDaemon.Log.Routing
import SearchDaemon.Machine
import SearchDaemon.Main
import SearchDaemon.Message
import SearchDaemon.Message.Decoding
import SearchDaemon.Message.Encoding
import SearchDaemon.Numeral
import SearchDaemon.Pattern.Builder
import SearchDaemon.Pattern.ByteSet
import SearchDaemon.Pattern.Error
import SearchDaemon.Pattern.Node
import SearchDaemon.Pattern.Search
import SearchDaemon.Pattern.Token
import SearchDaemon.PidFile
import SearchDaemon.Poll
import SearchDaemon.Processor
import SearchDaemon.Program
import SearchDaemon.Proofs.Delivery
import SearchDaemon.Proofs.DeliveryRuns
import SearchDaemon.Proofs.Reading
import SearchDaemon.Proofs.Run
import SearchDaemon.Proofs.Steps
import SearchDaemon.Service.Accepting
import SearchDaemon.Service.Basic
import SearchDaemon.Service.Handling
import SearchDaemon.Service.Monitoring
import SearchDaemon.Service.Pool
import SearchDaemon.Service.Scheduling
import SearchDaemon.Service.Step
import SearchDaemon.Service.Teardown
import SearchDaemon.Service.Visit
import SearchDaemon.Service.Working
import SearchDaemon.Signals
import SearchDaemon.Stream
import SearchDaemon.Proofs.Acts
import SearchDaemon.Proofs.Handling
import SearchDaemon.Proofs.Dealing
import SearchDaemon.Proofs.Answering
import SearchDaemon.Proofs.RequestBodies
import SearchDaemon.Proofs.Framing
import SearchDaemon.Proofs.ResponseBodies
import SearchDaemon.Proofs.Fields
import SearchDaemon.Proofs.Draining
import SearchDaemon.Proofs.Monitoring
import SearchDaemon.Proofs.Accounting
import SearchDaemon.Proofs.ReadingBack
import SearchDaemon.Proofs.Directories
import SearchDaemon.Proofs.Settling
import SearchDaemon.Proofs.SignalSessions
import SearchDaemon.Proofs.Teardown
import SearchDaemon.Proofs.Binding
import SearchDaemon.Proofs.OrderlyStop
import SearchDaemon.Proofs.Rollback
import SearchDaemon.Proofs.Losses
import SearchDaemon.Proofs.ChannelGroups
import SearchDaemon.Proofs.Isolation
import SearchDaemon.Proofs.TakenPaths
import SearchDaemon.Proofs.ForegroundStart
import SearchDaemon.Proofs.StopCommand
import SearchDaemon.Proofs.Flushing
import SearchDaemon.Proofs.Below
import SearchDaemon.Proofs.Finding
import SearchDaemon.Proofs.BindingOutcomes
import SearchDaemon.Proofs.Alignment
import SearchDaemon.Proofs.Aside
import SearchDaemon.Proofs.LeftAlone
import SearchDaemon.Proofs.Pieces
import SearchDaemon.Proofs.Numerals
import SearchDaemon.Proofs.PidFiles
import SearchDaemon.Proofs.EnsuredDirectories
import SearchDaemon.Proofs.SharedPaths
import SearchDaemon.Proofs.MessageBodies
import SearchDaemon.Proofs.ArgumentOrder
import SearchDaemon.Proofs.Literals
import SearchDaemon.Proofs.LogOutputs
import SearchDaemon.Proofs.WrittenPids
import SearchDaemon.Proofs.FileCounts
import SearchDaemon.Proofs.AlikePatterns
import SearchDaemon.Proofs.PatternTexts
import SearchDaemon.Proofs.AlikeBuilders
import SearchDaemon.Proofs.Alternatives
import SearchDaemon.Proofs.PlantedTrees
import SearchDaemon.Proofs.Exchanges
import SearchDaemon.Proofs.Visits
import SearchDaemon.Proofs.Serving
