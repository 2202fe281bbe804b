import FlowStudyJudge.Effects.Prog
import FlowStudyJudge.Effects.Run
import FlowStudyJudge.Effects.Partial
import FlowStudyJudge.Effects.Loop
import FlowStudyJudge.Effects.Embed
import FlowStudyJudge.Effects.Simulation
import FlowStudyJudge.Effects.Relational
import FlowStudyJudge.Effects.Threads
import FlowStudyJudge.Effects.Rest
import FlowStudyJudge.Text.Bytes
import FlowStudyJudge.Text.Numeral
import FlowStudyJudge.Text.Rounding
import FlowStudyJudge.Text.Decimal
import FlowStudyJudge.Text.Thousandths
import FlowStudyJudge.Text.Lines
import FlowStudyJudge.Text.Shell
import FlowStudyJudge.Text.Sql
import FlowStudyJudge.Text.Java
import FlowStudyJudge.Storage.Transaction
import FlowStudyJudge.Storage.Queue
import FlowStudyJudge.Storage.Exclusive
import FlowStudyJudge.Storage.Pool
import FlowStudyJudge.Storage.Turns
import FlowStudyJudge.Storage.FileSystem
import FlowStudyJudge.Storage.Inodes
import FlowStudyJudge.Db.Schema
import FlowStudyJudge.Host
import FlowStudyJudge.Judge.Status
import FlowStudyJudge.Judge.Meta
import FlowStudyJudge.Judge.Compare
import FlowStudyJudge.Judge.Comparison
import FlowStudyJudge.Judge.RecordOrder
import FlowStudyJudge.Judge.Report
import FlowStudyJudge.Judge.Message
import FlowStudyJudge.Judge.Format
import FlowStudyJudge.Judge.Publish
import FlowStudyJudge.Judge.Numbers
import FlowStudyJudge.Judge.Sandbox
import FlowStudyJudge.Config.Config
import FlowStudyJudge.Judge.ClassName
import FlowStudyJudge.Judge.Engine
import FlowStudyJudge.Db.Client
import FlowStudyJudge.Db.Sql
import FlowStudyJudge.Worker.Worker
import FlowStudyJudge.Mq.Client
import FlowStudyJudge.Mq.Protocol
import FlowStudyJudge.Worker.Shutdown
import FlowStudyJudge.Judge.Behaviour
import FlowStudyJudge.Judge.SideBySide
import FlowStudyJudge.Judge.Commands
import FlowStudyJudge.Judge.HostFs
import FlowStudyJudge.Judge.Confinement
import FlowStudyJudge.Judge.Measurements
import FlowStudyJudge.Db.Behaviour
import FlowStudyJudge.Db.Handles
import FlowStudyJudge.Db.Server
import FlowStudyJudge.Worker.Behaviour
import FlowStudyJudge.Worker.Delivery
import FlowStudyJudge.Judge.Exceptions
import FlowStudyJudge.Judge.Verdicts
import FlowStudyJudge.Judge.Consistency
import FlowStudyJudge.Judge.EarlyExit
import FlowStudyJudge.Judge.CaseIndices
import FlowStudyJudge.Judge.Failures
import FlowStudyJudge.Judge.Box
import FlowStudyJudge.Judge.Evidence
import FlowStudyJudge.Judge.Leftovers
import FlowStudyJudge.Judge.Independence
import FlowStudyJudge.Worker.Settle
import FlowStudyJudge.Judge.BoxPool
import FlowStudyJudge.Judge.Waiting
import FlowStudyJudge.Worker.Pool
import FlowStudyJudge.Worker.Halting
import FlowStudyJudge.Worker.Main
import FlowStudyJudge.Worker.Rounds
import FlowStudyJudge.Worker.Session
import FlowStudyJudge.Worker.Refinement
import FlowStudyJudge.Worker.Delays
import FlowStudyJudge.Worker.Life
import FlowStudyJudge.Worker.Boxes
import FlowStudyJudge.Worker.Aborts
import FlowStudyJudge.Db.Transactions
import FlowStudyJudge.Worker.Stored
import FlowStudyJudge.Db.Redelivery
import FlowStudyJudge.Worker.Deployment
import FlowStudyJudge.Worker.Lossless
import FlowStudyJudge.Db.Scoreboard
import FlowStudyJudge.Worker.Integrity
import FlowStudyJudge.Worker.Standings
import FlowStudyJudge.Worker.Cluster
import FlowStudyJudge.Worker.Agreement
import FlowStudyJudge.Worker.Recovery
import FlowStudyJudge.Worker.Restart
import FlowStudyJudge.Worker.Duplicates
