import TopicPublisher.Main
import TopicPublisher.Rehearsal.CacheDrill
import TopicPublisher.Rehearsal.Session
import TopicPublisher.Rehearsal.WireDrill
import TopicPublisher.Proofs.Topic.Keys
import TopicPublisher.Proofs.Topic.Names
import TopicPublisher.Proofs.Schema
import TopicPublisher.Proofs.Schema.Fields
import TopicPublisher.Proofs.MessageId
import TopicPublisher.Proofs.Envelope
import TopicPublisher.Proofs.Config.Environment
import TopicPublisher.Proofs.Wire.Message
import TopicPublisher.Proofs.Handle.Contention
import TopicPublisher.Proofs.Handle.Wakeups
import TopicPublisher.Proofs.Cache.Overlap
import TopicPublisher.Proofs.Cache.Topics
import TopicPublisher.Proofs.Cache.Placement
import TopicPublisher.Proofs.Factory.Refusals
import TopicPublisher.Proofs.Factory.Fate
import TopicPublisher.Proofs.Factory.Resets
import TopicPublisher.Proofs.Factory.Counts
import TopicPublisher.Proofs.Factory.SingleFlight
import TopicPublisher.Proofs.Factory.Dispatch
import TopicPublisher.Proofs.Factory.Shutdown
import TopicPublisher.Proofs.Factory.Leases
import TopicPublisher.Proofs.Wire.Client
import TopicPublisher.Proofs.Wire.Joint
import TopicPublisher.Proofs.Factory.Deliveries
import TopicPublisher.Proofs.Factory.Rounds
import TopicPublisher.Proofs.Factory.Outcomes
import TopicPublisher.Proofs.CommandLine.Accounts
import TopicPublisher.Proofs.CommandLine.Performance
