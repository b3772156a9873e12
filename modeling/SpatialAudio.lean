import SpatialAudio.Arithmetic.Remainder
import SpatialAudio.Arithmetic.Single
import SpatialAudio.Block
import SpatialAudio.Command
import SpatialAudio.Decimal.Shortest
import SpatialAudio.Error
import SpatialAudio.Graph.Arrangement
import SpatialAudio.Graph.Basic
import SpatialAudio.Graph.Connection
import SpatialAudio.Graph.Lifecycle
import SpatialAudio.Graph.Property
import SpatialAudio.Graph.Pull
import SpatialAudio.Graph.Schedule
import SpatialAudio.Hrtf.Content
import SpatialAudio.Hrtf.Convolver
import SpatialAudio.Hrtf.Dataset
import SpatialAudio.Hrtf.Response
import SpatialAudio.Hrtf.SphericalHead
import SpatialAudio.Kernel
import SpatialAudio.Layout
import SpatialAudio.Memory
import SpatialAudio.Node.AmplitudePanner
import SpatialAudio.Node.Handle
import SpatialAudio.Node.HrtfPanner
import SpatialAudio.Node.Kind
import SpatialAudio.Node.Multipanner
import SpatialAudio.Node.Oscillator
import SpatialAudio.Node.RingSink
import SpatialAudio.Node.SamplePlayer
import SpatialAudio.Panning.ChannelMap
import SpatialAudio.Panning.Strategy
import SpatialAudio.Proofs.Aborts
import SpatialAudio.Proofs.Admission
import SpatialAudio.Proofs.Angles
import SpatialAudio.Proofs.Arena
import SpatialAudio.Proofs.Assembly
import SpatialAudio.Proofs.Attendance
import SpatialAudio.Proofs.BinaryForm
import SpatialAudio.Proofs.Books
import SpatialAudio.Proofs.Conduct
import SpatialAudio.Proofs.Consistency
import SpatialAudio.Proofs.Conversion
import SpatialAudio.Proofs.Convolution
import SpatialAudio.Proofs.Counting
import SpatialAudio.Proofs.Crowd
import SpatialAudio.Proofs.Dataflow
import SpatialAudio.Proofs.Delivery
import SpatialAudio.Proofs.Directions
import SpatialAudio.Proofs.Elementwise
import SpatialAudio.Proofs.Fates
import SpatialAudio.Proofs.FaultLog
import SpatialAudio.Proofs.Forwarding
import SpatialAudio.Proofs.Freshness
import SpatialAudio.Proofs.Generations
import SpatialAudio.Proofs.GivingUp
import SpatialAudio.Proofs.Housing
import SpatialAudio.Proofs.Invocation
import SpatialAudio.Proofs.Lifecycle
import SpatialAudio.Proofs.Limit
import SpatialAudio.Proofs.Listening
import SpatialAudio.Proofs.Loading
import SpatialAudio.Proofs.Maps
import SpatialAudio.Proofs.Marks
import SpatialAudio.Proofs.Nesting
import SpatialAudio.Proofs.NumberLine
import SpatialAudio.Proofs.Offers
import SpatialAudio.Proofs.Outcome
import SpatialAudio.Proofs.Ownership
import SpatialAudio.Proofs.Panning
import SpatialAudio.Proofs.Paths
import SpatialAudio.Proofs.Plans
import SpatialAudio.Proofs.Playback
import SpatialAudio.Proofs.Proposals
import SpatialAudio.Proofs.PullOrder
import SpatialAudio.Proofs.Ranges
import SpatialAudio.Proofs.Reachability
import SpatialAudio.Proofs.Recording
import SpatialAudio.Proofs.Refusals
import SpatialAudio.Proofs.Registration
import SpatialAudio.Proofs.Reloading
import SpatialAudio.Proofs.Residue
import SpatialAudio.Proofs.ResponseTable
import SpatialAudio.Proofs.Runs
import SpatialAudio.Proofs.SampleBySample
import SpatialAudio.Proofs.Seeking
import SpatialAudio.Proofs.Setting
import SpatialAudio.Proofs.Silence
import SpatialAudio.Proofs.Sinks
import SpatialAudio.Proofs.Sound
import SpatialAudio.Proofs.Speakers
import SpatialAudio.Proofs.Stability
import SpatialAudio.Proofs.Staging
import SpatialAudio.Proofs.Steadiness
import SpatialAudio.Proofs.Stories
import SpatialAudio.Proofs.Supervision
import SpatialAudio.Proofs.Switching
import SpatialAudio.Proofs.Tending
import SpatialAudio.Proofs.Truncation
import SpatialAudio.Proofs.UpToDate
import SpatialAudio.Proofs.Upkeep
import SpatialAudio.Proofs.Validity
import SpatialAudio.Proofs.WellFormed
import SpatialAudio.Proofs.Wiring
import SpatialAudio.Property.Properties
import SpatialAudio.Property.Value
import SpatialAudio.Reading
import SpatialAudio.Session.Answer
import SpatialAudio.Session.Basic
import SpatialAudio.Session.Change
import SpatialAudio.Session.Files
import SpatialAudio.Session.Library
import SpatialAudio.Session.Panner
import SpatialAudio.Session.Perform
import SpatialAudio.Session.Step
import SpatialAudio.Text.CodePoints
import SpatialAudio.Text.Combining
import SpatialAudio.Text.Ignorable
import SpatialAudio.Text.Quoted
import SpatialAudio.Text.Unprintable
