import ScriptHost.Host.Attachment
import ScriptHost.Host.Job
import ScriptHost.Script.Engine
import ScriptHost.Proofs.World
import ScriptHost.Proofs.Path.Canonical
import ScriptHost.Proofs.Files.Walk
import ScriptHost.Proofs.Files.Canonical
import ScriptHost.Proofs.Host.Within
import ScriptHost.Proofs.Host.Steps
import ScriptHost.Proofs.Host.Stages
import ScriptHost.Proofs.Host.Operations
import ScriptHost.Proofs.Host.Desks
import ScriptHost.Proofs.Host.WorldDesks
import ScriptHost.Proofs.Host.Status
import ScriptHost.Proofs.Host.Views
import ScriptHost.Proofs.Host.ViewSteps
import ScriptHost.Proofs.Host.Registration
import ScriptHost.Proofs.Host.Callers
import ScriptHost.Proofs.Host.Moments
import ScriptHost.Proofs.Host.Isolation
import ScriptHost.Proofs.Host.Rounds
import ScriptHost.Proofs.Host.Discipline
import ScriptHost.Proofs.Host.Microtasks
import ScriptHost.Proofs.Host.Recast
import ScriptHost.Proofs.Host.Likeness
import ScriptHost.Proofs.Host.Origins
import ScriptHost.Proofs.Host.Excused
import ScriptHost.Proofs.Timer.Desk
import ScriptHost.Proofs.Timer.Agreement
import ScriptHost.Proofs.Timer.Queue
import ScriptHost.Proofs.Timer.Order
import ScriptHost.Proofs.Timer.Events
import ScriptHost.Proofs.Timer.Ticks
import ScriptHost.Proofs.Timer.Accounts
import ScriptHost.Proofs.Timer.Callbacks
import ScriptHost.Proofs.Timer.Waiting
import ScriptHost.Proofs.Timer.Idle
import ScriptHost.Proofs.Timer.Stopping
import ScriptHost.Proofs.Timer.Capacity
import ScriptHost.Proofs.Timer.Loop
import ScriptHost.Proofs.Timer.Cadence
import ScriptHost.Proofs.Timer.Drain
import ScriptHost.Proofs.Timer.Effects
import ScriptHost.Proofs.Timer.Uncaught
import ScriptHost.Proofs.Module.Tables
import ScriptHost.Proofs.Module.Evaluations
import ScriptHost.Proofs.Module.History
import ScriptHost.Proofs.Module.Identity
import ScriptHost.Proofs.Module.Failures
import ScriptHost.Proofs.Module.Resolvers
import ScriptHost.Proofs.Module.Questions
import ScriptHost.Proofs.Module.Resolution
import ScriptHost.Proofs.Module.FileIds
import ScriptHost.Proofs.Module.Visit
import ScriptHost.Proofs.Module.Bodies
import ScriptHost.Proofs.Module.Library
import ScriptHost.Proofs.Module.Traversal
import ScriptHost.Proofs.Module.TopLevel
import ScriptHost.Proofs.Script.Bodies
import ScriptHost.Proofs.Script.Microtasks
import ScriptHost.Proofs.Path.Directory
import ScriptHost.Proofs.Path.Normal
import ScriptHost.Proofs.Path.Relative
import ScriptHost.Proofs.Timer.Wakeups
import ScriptHost.Proofs.Path.Joining
import ScriptHost.Proofs.Path.LastComponent
import ScriptHost.Proofs.Number.Truncation
import ScriptHost.Proofs.Buffers.Ranges
import ScriptHost.Proofs.Buffers.ByteValues
import ScriptHost.Proofs.Text.Templates
import ScriptHost.Proofs.Engine.Objects
import ScriptHost.Proofs.Script.Objects
import ScriptHost.Proofs.Text.Utf8
import ScriptHost.Proofs.Buffers.Objects
import ScriptHost.Proofs.Buffers.Codecs
import ScriptHost.Proofs.Path.Parent
import ScriptHost.Proofs.Files.Refusals
import ScriptHost.Proofs.Files.Failures
import ScriptHost.Proofs.Text.Quoting
import ScriptHost.Proofs.Path.Ending
import ScriptHost.Proofs.Config.Variables
import ScriptHost.Proofs.Number.Equality
import ScriptHost.Proofs.Timer.Handles
import ScriptHost.Proofs.Timer.Bench
