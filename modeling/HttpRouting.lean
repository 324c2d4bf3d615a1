import HttpRouting.Application.Description
import HttpRouting.Application.Draft
import HttpRouting.Application.Live
import HttpRouting.Application.Program
import HttpRouting.Pipeline.Probe
import HttpRouting.Pipeline.Recovery
import HttpRouting.Proofs.TrieInsertion
import HttpRouting.Table.Priority
import HttpRouting.Proofs.HostOrder
import HttpRouting.Proofs.HostTiers
import HttpRouting.Proofs.Registration
import HttpRouting.Proofs.PathCompile
import HttpRouting.Proofs.Search
import HttpRouting.Proofs.Matching
import HttpRouting.Proofs.BuiltPath
import HttpRouting.Proofs.ReverseRouting
import HttpRouting.Proofs.PathRoundTrip
import HttpRouting.Proofs.BoundedRun
import HttpRouting.Proofs.Expiry
import HttpRouting.Proofs.TimeBound
import HttpRouting.Proofs.LeastDeadline
import HttpRouting.Proofs.Along
import HttpRouting.Proofs.Cancellation
import HttpRouting.Proofs.PanicScope
import HttpRouting.Proofs.Calm
import HttpRouting.Proofs.SharedLayers
import HttpRouting.Proofs.Contents
import HttpRouting.Proofs.Representation
import HttpRouting.Proofs.Answers
import HttpRouting.Proofs.CancelledScopes
import HttpRouting.Proofs.Admission
import HttpRouting.Proofs.AlikeTables
import HttpRouting.Proofs.RegistrationOrder
import HttpRouting.Proofs.NamePolicy
import HttpRouting.Proofs.JoinedPath
import HttpRouting.Proofs.FlatProgram
import HttpRouting.Proofs.RequestRun
import HttpRouting.Proofs.AllowField
import HttpRouting.Proofs.ConstantFailure
import HttpRouting.Proofs.Outline
import HttpRouting.Proofs.Stages
import HttpRouting.Proofs.BoundRoute
import HttpRouting.Proofs.BareHost
import HttpRouting.Proofs.HostReach
import HttpRouting.Proofs.OverriddenMethod
import HttpRouting.Proofs.PathGrammar
import HttpRouting.Proofs.HostCase
import HttpRouting.Proofs.Summaries
import HttpRouting.Proofs.FormReadBack
import HttpRouting.Proofs.BuiltTarget
import HttpRouting.Proofs.Interleaving
import HttpRouting.Proofs.HostGrammar
import HttpRouting.Proofs.RepeatedOverride
import HttpRouting.Proofs.WithheldDetails
import HttpRouting.Proofs.NestedResponders
import HttpRouting.Proofs.JoinedPatterns
import HttpRouting.Proofs.BodyHints
import HttpRouting.Proofs.Backtracking
import HttpRouting.Proofs.SuffixOrder
